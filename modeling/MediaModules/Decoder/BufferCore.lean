import MediaModules.Lib.Run
import Mathlib.Algebra.Order.Ring.Int
import Mathlib.Data.List.Nodup

/-!
# The buffer core

The buffers of a decoder are attached under a key and handed round between their users by reference.
A buffer that nobody refers to waits in the free queue.
-/
namespace MediaModules.BufferCore

open Lib.Run

/-- `enum buf_core_state`. -/
inductive BufCoreState
  | init
  | free
  | use
  | ref
  | done
  | err
deriving DecidableEq, Repr

/-- `enum buf_core_user`. -/
inductive BufCoreUser
  | dec
  | vpp
  | ge2d
  | avbcd
  | vsink
  | di
  | max
deriving DecidableEq, Repr

/-- `enum buf_core_holder`. -/
inductive BufCoreHolder
  | dec
  | vpp
  | ge2d
  | vsink
  | di
  | free
deriving DecidableEq, Repr

/-- `enum buf_direction`. -/
inductive BufDirection
  | get
  | put
deriving DecidableEq, Repr

/-- `enum buf_core_mgr_state`. -/
inductive BufCoreMgrState
  | init
  | active
  | exit
deriving DecidableEq, Repr

def DEC_BIT : BitVec 32 := 1#32 <<< 0
def GE2D_BIT : BitVec 32 := 1#32 <<< 4
def VPP_BIT : BitVec 32 := 1#32 <<< 8
def VSINK_BIT : BitVec 32 := 1#32 <<< 12
def DI_BIT : BitVec 32 := 1#32 <<< 16

def DEC_MASK : BitVec 32 := 0xf#32
def GE2D_MASK : BitVec 32 := 0xf0#32
def VPP_MASK : BitVec 32 := 0xf00#32
def VSINK_MASK : BitVec 32 := 0xf000#32
def DI_MASK : BitVec 32 := 0xf0000#32

/-- The value an `atomic_t` takes. -/
def atomic (x : Int) : Int := (x + 2147483648) % 4294967296 - 2147483648

/-- `struct buf_core_entry`, of a buffer that is not paired. -/
structure BufCoreEntry where
  key : Nat := 0
  phyAddr : Nat := 0
  ref : Int := 0
  dmaRef : BitVec 32 := 0#32
  state : BufCoreState := .init
  user : BufCoreUser := .dec
  holder : BufCoreHolder := .dec
  vb2 : Nat := 0
  refBitMap : BitVec 32 := 0#32
  inited : Bool := false
  queuedMask : Nat := 0
  setBufPlanesFlag : Bool := false

namespace BufCoreEntry

variable (e : BufCoreEntry)

/-- `direction_buf_get`: the holder and `ref_bit_map`; `pre` is what `get_pre_user` answers. -/
def directionBufGet (pre : BufCoreUser) : BufCoreUser → BufCoreHolder × BitVec 32
  | .dec => (.dec, e.refBitMap + DEC_BIT)
  | .vpp =>
    let map := e.refBitMap + VPP_BIT
    (.vpp, if pre = .dec then map - DEC_BIT else if pre = .ge2d then map - GE2D_BIT else map)
  | .ge2d => (.ge2d, e.refBitMap + GE2D_BIT - DEC_BIT)
  | .vsink =>
    let map := e.refBitMap + VSINK_BIT
    (.vsink,
      if pre = .vpp then map - VPP_BIT
      else if pre = .dec then map - DEC_BIT
      else if pre = .ge2d then map - GE2D_BIT
      else map)
  | .di => (e.holder, e.refBitMap + DI_BIT)
  | _ => (e.holder, e.refBitMap)

/-- `direction_buf_put`: the holder and `ref_bit_map`. -/
def directionBufPut : BufCoreUser → BufCoreHolder × BitVec 32
  | .dec =>
    let map := if e.refBitMap &&& DEC_MASK ≠ 0 then e.refBitMap - DEC_BIT else e.refBitMap
    (if map &&& VSINK_MASK ≠ 0 then .vsink
      else if map &&& VPP_MASK ≠ 0 then .vpp
      else if map &&& GE2D_MASK ≠ 0 then .ge2d
      else e.holder, map)
  | .vpp =>
    let map := e.refBitMap - VPP_BIT
    (if map &&& VPP_MASK ≠ 0 then .vpp
      else if map &&& DEC_MASK ≠ 0 then .dec
      else if map &&& GE2D_MASK ≠ 0 then .ge2d
      else e.holder, map)
  | .ge2d =>
    let map := e.refBitMap - GE2D_BIT
    (if map &&& GE2D_MASK ≠ 0 then .ge2d else .dec, map)
  | .vsink =>
    let map := e.refBitMap - VSINK_BIT
    (if map &&& VSINK_MASK ≠ 0 then .vsink
      else if map &&& DI_MASK ≠ 0 then .di
      else if map &&& DEC_MASK ≠ 0 then .dec
      else e.holder, map)
  | .di => (e.holder, e.refBitMap - DI_BIT)
  | _ => (e.holder, e.refBitMap)

/-- `buf_core_update_holder`. -/
def updateHolder (user pre : BufCoreUser) (direction : BufDirection) : BufCoreEntry :=
  let r := match direction with
    | .get => e.directionBufGet pre user
    | .put => e.directionBufPut user
  { e with holder := r.1, refBitMap := r.2 }

@[simp] theorem updateHolder_state (user pre : BufCoreUser) (d : BufDirection) :
    (e.updateHolder user pre d).state = e.state := rfl

@[simp] theorem updateHolder_ref (user pre : BufCoreUser) (d : BufDirection) :
    (e.updateHolder user pre d).ref = e.ref := rfl

/-- What `buf_core_free_que` makes of an entry. -/
def freed : BufCoreEntry :=
  { e with state := .free, holder := .free, refBitMap := 0#32, inited := true, queuedMask := 0 }

end BufCoreEntry

/-- `struct buf_core_mgr_s`, in static mode: the attached entries are those of `buf_table`. Entries
are named by numbers, `next` being the first that was never allocated. -/
structure BufCoreMgr where
  state : BufCoreMgrState := .init
  coreRef : Nat := 1
  freeNum : Int := 0
  freeQue : List Nat := []
  bufNum : Int := 0
  bufTable : List Nat := []
  entry : Nat → BufCoreEntry := fun _ => {}
  next : Nat := 0

namespace BufCoreMgr

variable (bc : BufCoreMgr)

/-- `bc_sanity_check`. -/
def sanityCheck : Bool := bc.state = .active

def setEntry (e : Nat) (x : BufCoreEntry) : BufCoreMgr :=
  { bc with entry := Function.update bc.entry e x }

@[simp] theorem setEntry_self (e : Nat) (x : BufCoreEntry) : (bc.setEntry e x).entry e = x := by
  simp only [setEntry, Function.update_self]

theorem setEntry_of_ne {e e' : Nat} (h : e' ≠ e) (x : BufCoreEntry) :
    (bc.setEntry e x).entry e' = bc.entry e' := by
  simp only [setEntry, Function.update_of_ne h]

/-- The entry under a key. -/
def attached (key : Nat) : Option Nat := bc.bufTable.find? fun e => (bc.entry e).key = key

/-- Every entry of a list is still allocated. -/
def allAttached (es : List Nat) : Bool := es.all fun e => e ∈ bc.bufTable

/-- `buf_core_free_que`; `none` when the queue is written through an entry that was freed, or an
entry from within the queue is added again. -/
def freeQueue (e : Nat) : Option BufCoreMgr :=
  let s := bc.setEntry e (bc.entry e).freed
  if bc.allAttached bc.freeQue.getLast?.toList then
    -- `list_add_valid`
    if bc.freeQue.getLast? = some e then some s
    else if e ∈ bc.freeQue then none
    else some { s with freeQue := bc.freeQue ++ [e], freeNum := bc.freeNum + 1 }
  else none

/-- `buf_core_get`: the entry handed out. -/
def get (user pre : BufCoreUser) : Option (BufCoreMgr × Option Nat) :=
  if bc.sanityCheck then
    match bc.freeQue with
    | [] => some (bc, none)
    | e :: rest =>
      if bc.allAttached (e :: rest.head?.toList) then
        let x := { bc.entry e with user, state := .use, ref := atomic ((bc.entry e).ref + 1) }
        some ({ bc.setEntry e (x.updateHolder user pre .get) with
          freeQue := rest, freeNum := bc.freeNum - 1 }, some e)
      else none
  else some (bc, none)

/-- `buf_core_get_ref`. -/
def getRef (e : Nat) : BufCoreMgr :=
  if bc.sanityCheck then
    let x := { bc.entry e with state := .ref, ref := atomic ((bc.entry e).ref + 1) }
    bc.setEntry e (x.updateHolder .dec .max .get)
  else bc

/-- A reference is given back: the last one frees the buffer. -/
def release (e : Nat) (user : BufCoreUser) : Option BufCoreMgr :=
  let x := { bc.entry e with ref := atomic ((bc.entry e).ref - 1) }
  if x.ref = 0 then (bc.setEntry e x).freeQueue e
  else some (bc.setEntry e ({ x with state := .ref }.updateHolder user .max .put))

/-- `buf_core_put_ref`. -/
def putRef (e : Nat) : Option BufCoreMgr :=
  if (bc.entry e).ref = 0 && !bc.sanityCheck then some bc else bc.release e .dec

/-- `buf_core_done`; `ret` is what `output` returns. -/
def done (e : Nat) (ret : Int) : Int × BufCoreMgr :=
  let x := bc.entry e
  if !bc.sanityCheck then (0, bc)
  else if x.state ≠ .use ∧ x.state ≠ .ref ∧ x.state ≠ .done then (-1, bc)
  else (ret, bc.setEntry e { x with state := .done })

/-- `buf_core_fill` takes the reference back. -/
def fills (e : Nat) : Bool :=
  let x := bc.entry e
  bc.sanityCheck && (x.state = .init || x.state = .done || x.state = .ref)

/-- `buf_core_fill`. -/
def fill (e : Nat) (user : BufCoreUser) : Option BufCoreMgr :=
  if bc.fills e then bc.release e user else some bc

/-- `buf_core_reset`; `none` when it comes to an entry of the queue that was freed. -/
def reset : Option BufCoreMgr :=
  if bc.allAttached bc.freeQue then
    some { bc with
      freeQue := []
      entry := fun e =>
        if e ∈ bc.bufTable then { bc.entry e with
          user := .max, state := .init, queuedMask := 0, inited := false, setBufPlanesFlag := false
          ref := 1 }
        else bc.entry e
      freeNum := 0 }
  else none

/-- `buf_core_destroy`. -/
def destroy : Option BufCoreMgr :=
  if bc.allAttached bc.freeQue then
    some { bc with freeQue := [], freeNum := 0, bufNum := 0, state := .exit }
  else none

/-- `kref_put` of the buffer core. -/
def krefPut : Option BufCoreMgr :=
  let s := { bc with coreRef := bc.coreRef - 1 }
  if s.coreRef = 0 then s.destroy else some s

/-- `is_dma_mode`. -/
def isDmaMode (key phyAddr : Nat) : Bool := key ≠ phyAddr

/-- `buf_core_attach`; `ret` is what `mem_ops.alloc` returns. -/
def attach (key phyAddr priv : Nat) (ret : Int) : Int × BufCoreMgr :=
  match bc.attached key with
  | some e =>
    let x := bc.entry e
    (0, bc.setEntry e { x with
      dmaRef := if isDmaMode key phyAddr ∧ x.dmaRef = 0 then x.dmaRef + 1 else x.dmaRef
      user := .max
      state := .init
      vb2 := priv })
  | none =>
    if ret ≠ 0 then (ret, bc)
    else
      let x : BufCoreEntry :=
        { key, phyAddr, vb2 := priv, user := .max, state := .init, ref := 1
          dmaRef := if isDmaMode key phyAddr then 1 else 0 }
      (0, { bc.setEntry bc.next x with
        bufTable := bc.next :: bc.bufTable
        state := .active
        bufNum := bc.bufNum + 1
        coreRef := bc.coreRef + 1
        next := bc.next + 1 })

/-- `buf_core_detach`. -/
def detach (key : Nat) : Option BufCoreMgr :=
  match bc.attached key with
  | none => some bc
  | some e => { bc with bufTable := bc.bufTable.erase e }.krefPut

end BufCoreMgr

/-- The buffer core, and the references to each buffer that were not given back. -/
structure Traffic where
  core : BufCoreMgr := {}
  refs : Nat → Nat := fun _ => 0

/-- A call. -/
inductive Op
  | attach (key phyAddr priv : Nat) (ret : Int)
  | detach (key : Nat)
  | reset
  | get (user pre : BufCoreUser)
  | getRef (e : Nat)
  | putRef (e : Nat)
  | done (e : Nat) (ret : Int)
  | fill (e : Nat) (user : BufCoreUser)

/-- One call; `none` uses an entry after it was freed. A new buffer, and every buffer after a reset,
is referred to by the one who attached it. -/
def step (s : Traffic) : Op → Option Traffic
  | .attach key phyAddr priv ret =>
    some
      { core := (s.core.attach key phyAddr priv ret).2
        refs := if s.core.attached key = none ∧ ret = 0 then Function.update s.refs s.core.next 1
          else s.refs }
  | .detach key => (s.core.detach key).map fun core =>
      { core, refs := (s.core.attached key).elim s.refs fun e => Function.update s.refs e 0 }
  | .reset => s.core.reset.map fun core =>
      { core, refs := fun e => if e ∈ s.core.bufTable then 1 else 0 }
  | .get user pre => (s.core.get user pre).map fun r =>
      { core := r.1, refs := r.2.elim s.refs fun e => Function.update s.refs e (s.refs e + 1) }
  | .getRef e =>
    if e ∈ s.core.bufTable then
      some
        { core := s.core.getRef e
          refs := if s.core.sanityCheck then Function.update s.refs e (s.refs e + 1) else s.refs }
    else none
  | .putRef e =>
    if e ∈ s.core.bufTable then
      (s.core.putRef e).map fun core => { core, refs := Function.update s.refs e (s.refs e - 1) }
    else none
  | .done e ret =>
    if e ∈ s.core.bufTable then some { s with core := (s.core.done e ret).2 } else none
  | .fill e user =>
    if e ∈ s.core.bufTable then
      (s.core.fill e user).map fun core =>
        { core, refs :=
            if s.core.fills e then Function.update s.refs e (s.refs e - 1) else s.refs }
    else none

/-- The buffer is attached, and is given back only by who refers to it. -/
def Allowed (s : Traffic) : Op → Prop
  | .putRef e | .fill e _ => e ∈ s.core.bufTable ∧ 0 < s.refs e
  | .getRef e | .done e _ => e ∈ s.core.bufTable
  | _ => True

/-! ## Where the buffers are -/

/-- The free queue holds the free buffers, each once and nothing else; references are counted; and
no buffer is handed out that somebody refers to. -/
structure Kept (s : Traffic) : Prop where
  counted : s.core.freeNum = s.core.freeQue.length
  queued : ∀ e ∈ s.core.bufTable, s.core.freeQue.count e ≤ 1 ∧
    (e ∈ s.core.freeQue ↔ (s.core.entry e).state = .free)
  referenced : ∀ e ∈ s.core.bufTable, (s.core.entry e).ref = s.refs e ∧
    ((s.core.entry e).state = .free → s.refs e = 0)
  handed : ∀ user pre core e, s.core.get user pre = some (core, some e) → s.refs e = 0
  attached : ∀ e ∈ s.core.freeQue, e ∈ s.core.bufTable

/-- No buffer of the free queue is attached again, detached, or referred to by another than who it
is handed out to; and references have room. -/
def Undisturbed (s : Traffic) : Op → Prop
  | .attach key _ _ _ | .detach key =>
    ∀ e, s.core.attached key = some e → (s.core.entry e).state ≠ .free
  | .getRef e => (s.core.entry e).state ≠ .free ∧ s.refs e + 1 < 2147483648
  | _ => True

/-! ## The invariant -/

/-- What holds of a buffer core and the references to its buffers between two calls. -/
structure Sound (bc : BufCoreMgr) (refs : Nat → Nat) : Prop where
  counted : bc.freeNum = bc.freeQue.length
  once : bc.freeQue.Nodup
  queued : ∀ e, e ∈ bc.freeQue ↔ e ∈ bc.bufTable ∧ (bc.entry e).state = .free
  referenced : ∀ e ∈ bc.bufTable, (bc.entry e).ref = refs e ∧ refs e < 2147483648
  free : ∀ e ∈ bc.freeQue, refs e = 0
  table : bc.bufTable.Nodup
  old : ∀ e ∈ bc.bufTable, e < bc.next
  active : bc.bufTable ≠ [] → bc.state = .active
  core : bc.coreRef = bc.bufTable.length + 1

section Steps

open BufCoreMgr

variable {bc core : BufCoreMgr} {refs : Nat → Nat} {e : Nat} {n : Nat}

theorem atomic_of_lt (hn : n < 2147483648) : atomic n = n := by
  unfold atomic
  omega

theorem Sound.attached_of_mem (h : Sound bc refs) (he : e ∈ bc.freeQue) : e ∈ bc.bufTable :=
  ((h.queued e).mp he).1

theorem Sound.sanity (h : Sound bc refs) (he : e ∈ bc.bufTable) : bc.sanityCheck = true :=
  decide_eq_true (h.active (List.ne_nil_of_mem he))

theorem Sound.allAttached (h : Sound bc refs) {es : List Nat} (hes : ∀ e ∈ es, e ∈ bc.freeQue) :
    bc.allAttached es = true :=
  List.all_eq_true.mpr fun e he => decide_eq_true (h.attached_of_mem (hes e he))

theorem mem_of_attached {key : Nat} (h : bc.attached key = some e) : e ∈ bc.bufTable :=
  List.mem_of_find?_eq_some h

/-- A referenced buffer is not in the queue. -/
theorem Sound.not_mem (h : Sound bc refs) (hpos : 0 < refs e) : e ∉ bc.freeQue := fun he =>
  Nat.ne_of_gt hpos (h.free e he)

/-- A buffer that is not in the queue changes, and the references to it. -/
theorem Sound.write (h : Sound bc refs) (hque : e ∉ bc.freeQue) (x : BufCoreEntry)
    (hstate : x.state ≠ .free) (href : x.ref = n) (hn : n < 2147483648) :
    Sound (bc.setEntry e x) (Function.update refs e n) := by
  refine ⟨h.counted, h.once, fun e' => ?_, fun e' he' => ?_, fun e' he' => ?_, h.table, h.old,
    h.active, h.core⟩
  · by_cases heq : e' = e
    · rw [heq, setEntry_self]
      exact iff_of_false hque fun hfree => hstate hfree.2
    · rw [setEntry_of_ne bc heq]
      exact h.queued e'
  · by_cases heq : e' = e
    · rw [heq, setEntry_self, Function.update_self]
      exact ⟨href, hn⟩
    · rw [setEntry_of_ne bc heq, Function.update_of_ne heq]
      exact h.referenced e' he'
  · have hne : e' ≠ e := fun heq => hque (heq ▸ he')
    rw [Function.update_of_ne hne]
    exact h.free e' he'

/-- A buffer that is not in the queue changes, but not the references to it. -/
theorem Sound.change (h : Sound bc refs) (hmem : e ∈ bc.bufTable) (hque : e ∉ bc.freeQue)
    (x : BufCoreEntry) (hstate : x.state ≠ .free) (href : x.ref = (bc.entry e).ref) :
    Sound (bc.setEntry e x) refs := by
  obtain ⟨hold, hlt⟩ := h.referenced e hmem
  have hwrite := h.write hque x hstate (href.trans hold) hlt
  rwa [Function.update_eq_self] at hwrite

/-- A buffer has joined the queue. -/
structure Joined (bc : BufCoreMgr) (e : Nat) (core : BufCoreMgr) : Prop where
  que : core.freeQue = bc.freeQue ++ [e]
  num : core.freeNum = bc.freeNum + 1
  state : (core.entry e).state = .free
  ref : (core.entry e).ref = (bc.entry e).ref
  entry : ∀ e', e' ≠ e → core.entry e' = bc.entry e'
  rest : core.bufTable = bc.bufTable ∧ core.next = bc.next ∧ core.state = bc.state ∧
    core.coreRef = bc.coreRef

theorem freeQueue_joined (bc : BufCoreMgr) (htail : bc.allAttached bc.freeQue.getLast?.toList = true)
    (hque : e ∉ bc.freeQue) : ∃ core, bc.freeQueue e = some core ∧ Joined bc e core := by
  have hlast : bc.freeQue.getLast? ≠ some e := fun hl => hque (List.mem_of_getLast? hl)
  have hself := bc.setEntry_self e (bc.entry e).freed
  refine ⟨_, (if_pos htail).trans ((if_neg hlast).trans (if_neg hque)), rfl, rfl, ?_, ?_,
    fun e' hne => bc.setEntry_of_ne hne _, rfl, rfl, rfl, rfl⟩
  · exact congrArg BufCoreEntry.state hself
  · show ((bc.setEntry e (bc.entry e).freed).entry e).ref = (bc.entry e).ref
    rw [hself]
    rfl

/-- A buffer that is not in the queue joins it, when nobody refers to it any longer. -/
theorem Sound.freeQueue (h : Sound bc refs) (hmem : e ∈ bc.bufTable) (hque : e ∉ bc.freeQue)
    (x : BufCoreEntry) (href : x.ref = 0) :
    ∃ core, (bc.setEntry e x).freeQueue e = some core ∧ Sound core (Function.update refs e 0) := by
  obtain ⟨core, hcore, hj⟩ := freeQueue_joined (bc.setEntry e x)
    (h.allAttached fun l hl => List.mem_of_getLast? (Option.mem_toList.mp hl)) hque
  obtain ⟨htable, hnext, hstate, hcoreRef⟩ := hj.rest
  have hother (e' : Nat) (hne : e' ≠ e) : core.entry e' = bc.entry e' :=
    (hj.entry e' hne).trans (bc.setEntry_of_ne hne x)
  have hqueue : core.freeQue = bc.freeQue ++ [e] := hj.que
  refine ⟨core, hcore, ?_, ?_, fun e' => ?_, fun e' he' => ?_, fun e' he' => ?_, ?_, ?_, ?_, ?_⟩
  · rw [hj.num, hqueue, List.length_append]
    exact congrArg (· + 1) h.counted
  · rw [hqueue]
    exact List.nodup_append.mpr ⟨h.once, List.nodup_singleton e, fun a ha b hb heq =>
      hque (List.mem_singleton.mp hb ▸ heq ▸ ha)⟩
  · rw [hqueue, htable, List.mem_append, List.mem_singleton]
    by_cases heq : e' = e
    · rw [heq]
      exact iff_of_true (Or.inr rfl) ⟨hmem, hj.state⟩
    · rw [hother e' heq]
      exact (or_iff_left heq).trans (h.queued e')
  · rw [htable] at he'
    by_cases heq : e' = e
    · rw [heq, hj.ref, setEntry_self, Function.update_self]
      exact ⟨href, by decide⟩
    · rw [hother e' heq, Function.update_of_ne heq]
      exact h.referenced e' he'
  · by_cases heq : e' = e
    · rw [heq, Function.update_self]
    · rw [Function.update_of_ne heq]
      rw [hqueue, List.mem_append, List.mem_singleton, or_iff_left heq] at he'
      exact h.free e' he'
  · exact htable ▸ h.table
  · rw [htable, hnext]
    exact h.old
  · rw [htable, hstate]
    exact h.active
  · rw [htable, hcoreRef]
    exact h.core

/-- A reference is given back. -/
theorem Sound.release (h : Sound bc refs) (hmem : e ∈ bc.bufTable) (hpos : 0 < refs e)
    (user : BufCoreUser) :
    ∃ core, bc.release e user = some core ∧ Sound core (Function.update refs e (refs e - 1)) := by
  obtain ⟨href, hlt⟩ := h.referenced e hmem
  have hque := h.not_mem hpos
  have hrest : atomic ((bc.entry e).ref - 1) = ((refs e - 1 : Nat) : Int) := by
    rw [href, ← Int.ofNat_one, ← Int.ofNat_sub hpos]
    exact atomic_of_lt (Nat.lt_of_le_of_lt (Nat.sub_le _ _) hlt)
  unfold BufCoreMgr.release
  dsimp only
  split
  · next hzero =>
    rw [show refs e - 1 = 0 by omega]
    exact h.freeQueue hmem hque _ hzero
  · refine ⟨_, rfl, h.write hque _ ?_ ?_ (Nat.lt_of_le_of_lt (Nat.sub_le _ _) hlt)⟩
    · rw [BufCoreEntry.updateHolder_state]
      exact nofun
    · rw [BufCoreEntry.updateHolder_ref]
      exact hrest

theorem Sound.leave (h : Sound bc refs) {rest : List Nat} (hque : bc.freeQue = e :: rest)
    (x : BufCoreEntry) (hstate : x.state ≠ .free) (href : x.ref = 1) :
    Sound { bc.setEntry e x with freeQue := rest, freeNum := bc.freeNum - 1 }
      (Function.update refs e 1) := by
  obtain ⟨hnot, hrest⟩ := List.nodup_cons.mp (hque ▸ h.once)
  refine ⟨?_, hrest, fun e' => ?_, fun e' he' => ?_, fun e' he' => ?_, h.table, h.old, h.active,
    h.core⟩
  · show bc.freeNum - 1 = (rest.length : Int)
    rw [h.counted, hque, List.length_cons]
    omega
  · show e' ∈ rest ↔ e' ∈ bc.bufTable ∧ ((bc.setEntry e x).entry e').state = .free
    by_cases heq : e' = e
    · rw [heq, setEntry_self]
      exact iff_of_false hnot fun hfree => hstate hfree.2
    · rw [setEntry_of_ne bc heq, ← h.queued e', hque, List.mem_cons]
      exact (or_iff_right heq).symm
  · show ((bc.setEntry e x).entry e').ref = _ ∧ _
    by_cases heq : e' = e
    · rw [heq, setEntry_self, Function.update_self]
      exact ⟨href, by decide⟩
    · rw [setEntry_of_ne bc heq, Function.update_of_ne heq]
      exact h.referenced e' he'
  · have hne : e' ≠ e := fun heq => hnot (heq ▸ he')
    rw [Function.update_of_ne hne]
    exact h.free e' (hque ▸ List.mem_cons_of_mem e he')

/-- A buffer that nobody refers to is handed out, if there is one. -/
theorem Sound.get (h : Sound bc refs) (user pre : BufCoreUser) :
    ∃ r, bc.get user pre = some r ∧
      Sound r.1 (r.2.elim refs fun e => Function.update refs e (refs e + 1)) ∧
      ∀ e, r.2 = some e → e ∈ bc.freeQue := by
  unfold BufCoreMgr.get
  split
  · split
    · exact ⟨_, rfl, h, nofun⟩
    · next e rest hque =>
      have hhead : e ∈ bc.freeQue := hque ▸ List.mem_cons_self
      have hattached : bc.allAttached (e :: rest.head?.toList) = true := by
        refine h.allAttached fun l hl => hque ▸ ?_
        rcases List.mem_cons.mp hl with rfl | hl
        · exact List.mem_cons_self
        · exact List.mem_cons_of_mem _ (List.mem_of_mem_head? (Option.mem_toList.mp hl))
      have hzero := h.free e hhead
      have href : atomic ((bc.entry e).ref + 1) = 1 := by
        rw [(h.referenced e (h.attached_of_mem hhead)).1, hzero]
        rfl
      rw [if_pos hattached]
      refine ⟨_, rfl, ?_, fun e' he' => Option.some.inj he' ▸ hhead⟩
      show Sound _ (Function.update refs e (refs e + 1))
      rw [hzero]
      refine h.leave hque _ ?_ ?_
      · rw [BufCoreEntry.updateHolder_state]
        exact nofun
      · rw [BufCoreEntry.updateHolder_ref]
        exact href
  · exact ⟨_, rfl, h, nofun⟩

/-- Every attached buffer is referred to once after a reset, and none is free. -/
theorem Sound.reset (h : Sound bc refs) :
    ∃ core, bc.reset = some core ∧ Sound core fun e => if e ∈ bc.bufTable then 1 else 0 := by
  refine ⟨_, if_pos (h.allAttached fun _ he => he), rfl, List.nodup_nil, fun e => ?_,
    fun e he => ?_, nofun, h.table, h.old, h.active, h.core⟩
  · apply iff_of_false nofun
    intro hfree
    have hstate := hfree.2
    simp only [if_pos hfree.1] at hstate
    exact absurd hstate nofun
  · have hmem : e ∈ bc.bufTable := he
    simp only [if_pos hmem]
    exact ⟨rfl, by decide⟩

theorem Sound.attach_new (h : Sound bc refs) (x : BufCoreEntry) (hstate : x.state ≠ .free)
    (href : x.ref = 1) :
    Sound { bc.setEntry bc.next x with
      bufTable := bc.next :: bc.bufTable
      state := .active
      bufNum := bc.bufNum + 1
      coreRef := bc.coreRef + 1
      next := bc.next + 1 } (Function.update refs bc.next 1) := by
  have hnew : bc.next ∉ bc.bufTable := fun hmem => Nat.lt_irrefl _ (h.old _ hmem)
  have hque : bc.next ∉ bc.freeQue := fun hmem => hnew (h.attached_of_mem hmem)
  have hwrite := h.write hque x hstate href (by decide)
  refine ⟨hwrite.counted, hwrite.once, fun e => ?_, fun e he => ?_, hwrite.free,
    List.nodup_cons.mpr ⟨hnew, h.table⟩, fun e he => ?_, fun _ => rfl, congrArg (· + 1) h.core⟩
  · refine (hwrite.queued e).trans (and_congr_left fun hfree => ?_)
    have hne : e ≠ bc.next := fun heq => hstate (by rwa [heq, setEntry_self] at hfree)
    exact (or_iff_right hne).symm.trans List.mem_cons.symm
  · rcases List.mem_cons.mp he with rfl | he
    · show ((bc.setEntry bc.next x).entry bc.next).ref = _ ∧ _
      rw [setEntry_self, Function.update_self]
      exact ⟨href, by decide⟩
    · exact hwrite.referenced e he
  · rcases List.mem_cons.mp he with rfl | he
    · exact Nat.lt_succ_self _
    · exact Nat.lt_succ_of_lt (h.old e he)

theorem Sound.detach (h : Sound bc refs) (hmem : e ∈ bc.bufTable) (hque : e ∉ bc.freeQue) :
    ∃ core, { bc with bufTable := bc.bufTable.erase e }.krefPut = some core ∧
      Sound core (Function.update refs e 0) := by
  have hlen := List.length_erase_add_one hmem
  have hcore := h.core
  have href : ¬ bc.coreRef - 1 = 0 := by omega
  have herase (e' : Nat) : e' ∈ bc.bufTable.erase e ↔ e' ≠ e ∧ e' ∈ bc.bufTable :=
    h.table.mem_erase_iff
  refine ⟨_, if_neg href, h.counted, h.once, fun e' => ?_, fun e' he' => ?_, fun e' he' => ?_,
    h.table.erase e, fun e' he' => h.old e' ((herase e').mp he').2, fun _ => ?_, ?_⟩
  · show e' ∈ bc.freeQue ↔ e' ∈ bc.bufTable.erase e ∧ _
    rw [herase, and_assoc, ← h.queued e']
    have hne (he' : e' ∈ bc.freeQue) : e' ≠ e := fun heq => hque (heq ▸ he')
    exact (and_iff_right_of_imp hne).symm
  · obtain ⟨hne, he'⟩ := (herase e').mp he'
    rw [Function.update_of_ne hne]
    exact h.referenced e' he'
  · have hne : e' ≠ e := fun heq => hque (heq ▸ he')
    rw [Function.update_of_ne hne]
    exact h.free e' he'
  · exact h.active (List.ne_nil_of_mem hmem)
  · show bc.coreRef - 1 = (bc.bufTable.erase e).length + 1
    omega

end Steps

section Runs

open BufCoreMgr

variable {s t : Traffic}

theorem Sound.kept (h : Sound s.core s.refs) : Kept s := by
  refine ⟨h.counted, fun e he => ⟨?_, ?_⟩, fun e he => ⟨(h.referenced e he).1, fun hfree => ?_⟩,
    fun user pre core e hget => ?_, fun e he => h.attached_of_mem he⟩
  · exact List.nodup_iff_count_le_one.mp h.once e
  · exact (h.queued e).trans (and_iff_right he)
  · exact h.free e ((h.queued e).mpr ⟨he, hfree⟩)
  · obtain ⟨r, hr, -, hhead⟩ := h.get user pre
    rw [hr] at hget
    exact h.free e (hhead e (congrArg Prod.snd (Option.some.inj hget)))

/-- Every call that disturbs nothing is defined, and keeps the buffers where they belong. -/
theorem sound_step (h : Sound s.core s.refs) (op : Op) (hallowed : Allowed s op)
    (hok : Undisturbed s op) : ∃ s', step s op = some s' ∧ Sound s'.core s'.refs := by
  cases op with
  | attach key phyAddr priv ret =>
    refine ⟨_, rfl, ?_⟩
    dsimp only [BufCoreMgr.attach]
    cases hkey : s.core.attached key with
    | some e =>
      have hque : e ∉ s.core.freeQue := fun he => hok e hkey ((h.queued e).mp he).2
      simp only [reduceCtorEq, false_and, if_false]
      exact h.change (mem_of_attached hkey) hque _ nofun rfl
    | none =>
      by_cases hret : ret = 0
      · simp only [hret, ne_eq, not_true_eq_false, if_false, and_self, if_true]
        exact h.attach_new _ (by exact nofun) rfl
      · simp only [hret, ne_eq, not_false_eq_true, if_true, and_false, if_false]
        exact h
  | detach key =>
    simp only [step, BufCoreMgr.detach]
    cases hkey : s.core.attached key with
    | some e =>
      have hque : e ∉ s.core.freeQue := fun he => hok e hkey ((h.queued e).mp he).2
      obtain ⟨core, hcore, hsound⟩ := h.detach (mem_of_attached hkey) hque
      exact ⟨_, congrArg (Option.map _) hcore, hsound⟩
    | none => exact ⟨_, rfl, h⟩
  | reset =>
    obtain ⟨core, hcore, hsound⟩ := h.reset
    exact ⟨_, congrArg (Option.map _) hcore, hsound⟩
  | get user pre =>
    obtain ⟨r, hr, hsound, -⟩ := h.get user pre
    exact ⟨_, congrArg (Option.map _) hr, hsound⟩
  | getRef e =>
    have hmem : e ∈ s.core.bufTable := hallowed
    have hque : e ∉ s.core.freeQue := fun he => hok.1 ((h.queued e).mp he).2
    refine ⟨_, if_pos hmem, ?_⟩
    simp only [BufCoreMgr.getRef, h.sanity hmem, if_true]
    refine h.write hque _ ?_ ?_ hok.2
    · rw [BufCoreEntry.updateHolder_state]
      exact nofun
    · rw [BufCoreEntry.updateHolder_ref]
      show atomic ((s.core.entry e).ref + 1) = _
      rw [(h.referenced e hmem).1]
      exact atomic_of_lt hok.2
  | putRef e =>
    obtain ⟨hmem, hpos⟩ := hallowed
    obtain ⟨core, hcore, hsound⟩ := h.release hmem hpos .dec
    have hput : s.core.putRef e = some core := by
      simp [BufCoreMgr.putRef, h.sanity hmem, hcore]
    exact ⟨_, (if_pos hmem).trans (congrArg (Option.map _) hput), hsound⟩
  | done e ret =>
    have hmem : e ∈ s.core.bufTable := hallowed
    refine ⟨_, if_pos hmem, ?_⟩
    simp only [BufCoreMgr.done, h.sanity hmem, Bool.not_true, Bool.false_eq_true, if_false]
    split
    · exact h
    · next hstate =>
      refine h.change hmem (fun he => hstate ?_) _ nofun rfl
      rw [((h.queued e).mp he).2]
      exact ⟨nofun, nofun, nofun⟩
  | fill e user =>
    obtain ⟨hmem, hpos⟩ := hallowed
    simp only [step, BufCoreMgr.fill, if_pos hmem]
    by_cases hfills : s.core.fills e = true
    · obtain ⟨core, hcore, hsound⟩ := h.release hmem hpos user
      rw [if_pos hfills, if_pos hfills, hcore]
      exact ⟨_, rfl, hsound⟩
    · rw [if_neg hfills, if_neg hfills]
      exact ⟨_, rfl, h⟩

/-- After a call that disturbs something, a buffer is not where it belongs. -/
theorem not_kept_step (h : Sound s.core s.refs) (op : Op) (hallowed : Allowed s op)
    (hno : ¬ Undisturbed s op) (ht : step s op = some t) : ¬ Kept t := by
  intro hkept
  have hfound {key : Nat} (hno : ¬ ∀ e, s.core.attached key = some e →
      (s.core.entry e).state ≠ .free) :
      ∃ e, s.core.attached key = some e ∧ e ∈ s.core.bufTable ∧ e ∈ s.core.freeQue := by
    simp only [ne_eq, not_forall, not_not] at hno
    obtain ⟨e, hkey, hfree⟩ := hno
    have hmem := mem_of_attached hkey
    exact ⟨e, hkey, hmem, (h.queued e).mpr ⟨hmem, hfree⟩⟩
  cases op with
  | attach key phyAddr priv ret =>
    obtain ⟨e, hkey, hmem, hque⟩ := hfound hno
    rw [← Option.some.inj ht] at hkept
    simp only [BufCoreMgr.attach, hkey] at hkept
    have hstate := ((hkept.queued e hmem).2).mp hque
    simp only [setEntry_self, reduceCtorEq] at hstate
  | detach key =>
    obtain ⟨e, hkey, hmem, hque⟩ := hfound hno
    have hlen := List.length_erase_add_one hmem
    have hcore := h.core
    have href : ¬ s.core.coreRef - 1 = 0 := by omega
    simp only [step, BufCoreMgr.detach, hkey, BufCoreMgr.krefPut, if_neg href] at ht
    rw [← Option.some.inj ht] at hkept
    exact (h.table.mem_erase_iff.mp (hkept.attached e hque)).1 rfl
  | getRef e =>
    have hmem : e ∈ s.core.bufTable := hallowed
    rw [← Option.some.inj ((if_pos hmem).symm.trans ht)] at hkept
    simp only [BufCoreMgr.getRef, h.sanity hmem, if_true] at hkept
    by_cases hfree : (s.core.entry e).state = .free
    · have hstate := ((hkept.queued e hmem).2).mp ((h.queued e).mpr ⟨hmem, hfree⟩)
      simp only [setEntry_self, BufCoreEntry.updateHolder_state, reduceCtorEq] at hstate
    · obtain ⟨href, hlt⟩ := h.referenced e hmem
      have hfull : s.refs e = 2147483647 := by
        have hroom : ¬ s.refs e + 1 < 2147483648 := fun hroom => hno ⟨hfree, hroom⟩
        omega
      have hcount := (hkept.referenced e hmem).1
      simp only [setEntry_self, BufCoreEntry.updateHolder_ref, Function.update_self, href,
        hfull] at hcount
      exact absurd hcount (by decide)
  | reset => exact absurd trivial hno
  | get user pre => exact absurd trivial hno
  | putRef e => exact absurd trivial hno
  | done e ret => exact absurd trivial hno
  | fill e user => exact absurd trivial hno

theorem sound_start : Sound ({} : Traffic).core ({} : Traffic).refs :=
  ⟨rfl, List.nodup_nil, fun _ => iff_of_false nofun nofun, nofun, nofun, List.nodup_nil, nofun,
    nofun, rfl⟩

/-- The buffers stay where they belong, and no buffer is used after it was freed, exactly while no
call disturbs the free queue and the references have room. -/
theorem buffers_kept (ops : List Op) (hallowed : Guarded step Allowed {} ops) :
    ((∃ t, run step {} ops = some t) ∧ Always step Kept {} ops) ↔
      Guarded step Undisturbed {} ops :=
  defined_iff_guarded_within (fun _ h => Sound.kept h) (fun _ op h hd hok => sound_step h op hd hok)
    (fun _ op _ h hd hno ht => not_kept_step h op hd hno ht) sound_start hallowed

/-- The calls for a buffer that is attached, given back, taken by the decoder and referred to a
second time. -/
def takenTwice : List Op := [.attach 1 1 0 0, .fill 0 .vsink, .get .dec .max, .getRef 0]

theorem buffers_kept_taken :
    (∃ t, run step {} takenTwice = some t) ∧ Always step Kept {} takenTwice := by
  refine (buffers_kept takenTwice ⟨trivial, fun s1 h1 => ?_⟩).mpr ⟨nofun, fun s1 h1 => ?_⟩
  · rw [← Option.some.inj h1]
    refine ⟨show _ ∧ _ by decide, fun s2 h2 => ⟨trivial, fun s3 h3 => ⟨?_, fun _ _ => trivial⟩⟩⟩
    rw [← Option.some.inj h2] at h3
    rw [← Option.some.inj h3]
    show (0 : Nat) ∈ _
    decide
  · rw [← Option.some.inj h1]
    refine ⟨trivial, fun s2 h2 => ⟨trivial, fun s3 h3 => ⟨?_, fun _ _ => trivial⟩⟩⟩
    rw [← Option.some.inj h2] at h3
    rw [← Option.some.inj h3]
    show _ ∧ _
    decide

/-- A free buffer is detached. -/
theorem freed_entry_queued : ¬ ∀ ops, Guarded step Allowed {} ops →
    (∃ t, run step {} ops = some t) ∧ Always step Kept {} ops := by
  intro h
  have hallowed : Guarded step Allowed {} [.attach 1 1 0 0, .fill 0 .vsink, .detach 1] := by
    refine ⟨trivial, fun s1 h1 => ?_⟩
    rw [← Option.some.inj h1]
    exact ⟨show _ ∧ _ by decide, fun _ _ => ⟨trivial, fun _ _ => trivial⟩⟩
  obtain ⟨⟨t, ht⟩, halways⟩ := h _ hallowed
  have hread := read_of_run (a := ([0], [])) (fun s => (s.core.freeQue, s.core.bufTable))
    (by decide) ht
  obtain ⟨hque, htable⟩ := Prod.mk.inj hread
  have hmem := (always_last halways ht).attached 0
  rw [hque, htable] at hmem
  exact absurd (hmem List.mem_cons_self) nofun

end Runs

end MediaModules.BufferCore
