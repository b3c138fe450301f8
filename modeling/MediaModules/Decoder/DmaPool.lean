import MediaModules.Lib.Run
import Mathlib.Data.List.FinRange
import Mathlib.Logic.Function.Basic
import Mathlib.Algebra.Order.Ring.Int

/-!
# The pool of dma buffers

The dma buffers of the buffer core in dynamic mode. A slot has a buffer and the handles that it is bound
to; a slot that nobody refers to waits in the free queue.
-/
namespace MediaModules.DmaPool

open MediaModules.Lib.Run

/-- `DAMBUF_POOL`. -/
abbrev dambufPool : Nat := 32

/-- `FIELD_NUM`. -/
abbrev fieldNum : Nat := 3

abbrev Handles := Fin fieldNum → Nat

/-- `struct buf_core_dma`. -/
structure BufCoreDma where
  dmabuf : Nat := 0
  phyAddr : Nat := 0
  ref : Int := 0
  dmaRef : Nat := 0
  used : Bool := false
  inited : Bool := false
  decRef : Int := 0
  uvmDma : Handles := fun _ => 0

/-- The part of `struct buf_core_mgr_s` for the dma buffers. `none` in place of a slot is a null
pointer. -/
structure Pool where
  dynamicMode : Bool
  dma : Fin dambufPool → BufCoreDma := fun _ => {}
  dmaFreeQue : List (Fin dambufPool) := []
  dmaFreeNum : Int := 0

def Pool.set (s : Pool) (i : Fin dambufPool) (d : BufCoreDma) : Pool :=
  { s with dma := Function.update s.dma i d }

/-- `list_add_tail` of a slot to the free queue. `none` when the slot is in the queue: its node would be
linked twice. -/
def Pool.queue (s : Pool) (i : Fin dambufPool) : Option Pool :=
  if i ∈ s.dmaFreeQue then none
  else some { s with dmaFreeQue := s.dmaFreeQue ++ [i], dmaFreeNum := s.dmaFreeNum + 1 }

/-- A slot with no reference goes to the queue. -/
def Pool.queueIdle (s : Pool) (i : Fin dambufPool) (d : BufCoreDma) : Option Pool :=
  if d.ref = 0 then s.queue i else some s

/-- `buf_core_alloc_dma`: the first slot that is not used. -/
def bufCoreAllocDma (s : Pool) : Option (Fin dambufPool) × Pool :=
  if s.dynamicMode = false then (none, s)
  else
    match (List.finRange dambufPool).find? fun i => !(s.dma i).used with
    | none => (none, s)
    | some i => (some i, s.set i { s.dma i with used := true, inited := true })

/-- Take the first binding to the handle away. -/
def unbindFirst (uvm : Nat) (u : Handles) : Handles :=
  match (List.finRange fieldNum).find? fun j => u j = uvm with
  | some j => Function.update u j 0
  | none => u

/-- A slot without its buffer. -/
def BufCoreDma.recycle (d : BufCoreDma) : BufCoreDma :=
  { d with
    dmabuf := 0
    phyAddr := 0
    ref := 0
    dmaRef := 0
    used := false
    inited := false }

/-- One turn of the loop of `buf_core_release_dma`. -/
def releaseSlot (uvm : Nat) (d : BufCoreDma) : BufCoreDma :=
  if d.dmabuf = 0 then d
  else
    let d := { d with uvmDma := unbindFirst uvm d.uvmDma }
    if d.inited = true ∧ ∀ j, d.uvmDma j = 0 then d.recycle else d

/-- `buf_core_release_dma`. -/
def bufCoreReleaseDma (s : Pool) (uvm : Nat) : Pool :=
  if s.dynamicMode = false then s
  else { s with dma := fun i => releaseSlot uvm (s.dma i), dmaFreeQue := [], dmaFreeNum := 0 }

/-- One turn of the loop of `buf_core_reset_dma`. -/
def resetSlot (s : Pool) (i : Fin dambufPool) : Option Pool :=
  if (s.dma i).decRef ≠ 0 then
    let d := { s.dma i with ref := (s.dma i).ref - 1 }
    (s.queueIdle i d).map fun s => s.set i { d with decRef := d.decRef - 1 }
  else some s

/-- `buf_core_reset_dma`. -/
def bufCoreResetDma (s : Pool) : Option Pool :=
  if s.dynamicMode = false then some s else (List.finRange dambufPool).foldlM resetSlot s

/-- `buf_core_get_free_dmabuf`. -/
def bufCoreGetFreeDmabuf (s : Pool) : Option (Fin dambufPool) × Pool :=
  if s.dynamicMode = false then (none, s)
  else
    match s.dmaFreeQue with
    | [] => (none, s)
    | i :: rest => (some i, { s with dmaFreeQue := rest, dmaFreeNum := s.dmaFreeNum - 1 })

/-- The first slot of a buffer, named by its pointer or its address. -/
def findDmabuf (s : Pool) (dmabuf : Nat) : Option (Fin dambufPool) :=
  (List.finRange dambufPool).find? fun i =>
    dmabuf ≠ 0 && (dmabuf = (s.dma i).dmabuf || dmabuf = (s.dma i).phyAddr)

/-- `buf_core_put_free_dmabuf`. -/
def bufCorePutFreeDmabuf (s : Pool) (dmabuf uvm : Nat) (decFlag : Bool) : Option Pool :=
  if s.dynamicMode = false then some s
  else
    match findDmabuf s dmabuf with
    | none => some s
    | some i =>
      let d := s.dma i
      let d := if d.dmaRef = 0 then { d with dmaRef := 1 } else d
      let d := { d with ref := d.ref - 1 }
      (s.queueIdle i d).map fun s =>
        let d := if uvm ≠ 0 then { d with uvmDma := unbindFirst uvm d.uvmDma } else d
        let d := if decFlag then { d with decRef := d.decRef - 1 } else d
        s.set i d

/-- `buf_core_get_dmabuf_ref`. -/
def bufCoreGetDmabufRef (s : Pool) (dmabuf : Nat) (decFlag : Bool) : Pool :=
  if s.dynamicMode = false then s
  else
    match findDmabuf s dmabuf with
    | none => s
    | some i =>
      let d := { s.dma i with ref := (s.dma i).ref + 1 }
      s.set i (if decFlag then { d with decRef := d.decRef + 1 } else d)

/-- The calls, with what the caller writes into a slot itself: the buffer of a slot that it has
allocated, a handle, and the address. -/
inductive Op
  | alloc (dmabuf : Nat)
  | bind (i : Fin dambufPool) (j : Fin fieldNum) (uvm : Nat)
  | address (i : Fin dambufPool) (phyAddr : Nat)
  | getFree
  | getRef (dmabuf : Nat) (decFlag : Bool)
  | putFree (dmabuf uvm : Nat) (decFlag : Bool)
  | reset
  | release (uvm : Nat)
deriving DecidableEq, Repr

def step (s : Pool) : Op → Option Pool
  | .alloc dmabuf =>
    match bufCoreAllocDma s with
    | (none, s) => some s
    | (some i, s) => some (s.set i { s.dma i with dmabuf := dmabuf })
  | .bind i j uvm =>
    some (s.set i { s.dma i with uvmDma := Function.update (s.dma i).uvmDma j uvm })
  | .address i phyAddr => some (s.set i { s.dma i with phyAddr := phyAddr })
  | .getFree => some (bufCoreGetFreeDmabuf s).2
  | .getRef dmabuf decFlag => some (bufCoreGetDmabufRef s dmabuf decFlag)
  | .putFree dmabuf uvm decFlag => bufCorePutFreeDmabuf s dmabuf uvm decFlag
  | .reset => bufCoreResetDma s
  | .release uvm => some (bufCoreReleaseDma s uvm)

/-! ## The counter of the free queue -/

def Counted (s : Pool) : Prop := s.dmaFreeNum = s.dmaFreeQue.length

theorem Counted.set {s : Pool} (h : Counted s) (i : Fin dambufPool) (d : BufCoreDma) :
    Counted (s.set i d) := h

theorem Counted.queue {s s' : Pool} (h : Counted s) (i : Fin dambufPool) (hs : s.queue i = some s') :
    Counted s' := by
  rw [Pool.queue] at hs
  split at hs
  · cases hs
  · cases hs
    rw [Counted, List.length_append, h]
    rfl

theorem Counted.queueIdle {s s' : Pool} {i : Fin dambufPool} {d : BufCoreDma} (h : Counted s)
    (hs : s.queueIdle i d = some s') : Counted s' := by
  rw [Pool.queueIdle] at hs
  split at hs
  · exact h.queue i hs
  · exact Option.some.inj hs ▸ h

theorem Counted.resetSlot {s s' : Pool} (h : Counted s) (i : Fin dambufPool)
    (hs : resetSlot s i = some s') : Counted s' := by
  rw [DmaPool.resetSlot] at hs
  split at hs
  · obtain ⟨t, ht, rfl⟩ := Option.map_eq_some_iff.mp hs
    exact (h.queueIdle ht).set i _
  · exact Option.some.inj hs ▸ h

theorem Counted.resetSlots {s s' : Pool} {l : List (Fin dambufPool)} (h : Counted s)
    (hs : l.foldlM DmaPool.resetSlot s = some s') : Counted s' := by
  induction l generalizing s with
  | nil => exact Option.some.inj hs ▸ h
  | cons i l ih =>
    rw [List.foldlM_cons] at hs
    obtain ⟨t, ht, hs⟩ := Option.bind_eq_some_iff.mp hs
    exact ih (h.resetSlot i ht) hs

theorem Counted.reset {s s' : Pool} (h : Counted s) (hs : bufCoreResetDma s = some s') :
    Counted s' := by
  rw [bufCoreResetDma] at hs
  split at hs
  · exact Option.some.inj hs ▸ h
  · exact h.resetSlots hs

theorem Counted.alloc {s : Pool} (h : Counted s) : Counted (bufCoreAllocDma s).2 := by
  rw [bufCoreAllocDma]
  split
  · exact h
  · split
    · exact h
    · exact h.set _ _

theorem Counted.getFree {s : Pool} (h : Counted s) : Counted (bufCoreGetFreeDmabuf s).2 := by
  rw [bufCoreGetFreeDmabuf]
  split
  · exact h
  · split
    · exact h
    · next i rest hque =>
      rw [Counted, hque, List.length_cons, Nat.cast_add] at h
      show s.dmaFreeNum - 1 = rest.length
      omega

theorem Counted.getRef {s : Pool} (h : Counted s) (dmabuf : Nat) (decFlag : Bool) :
    Counted (bufCoreGetDmabufRef s dmabuf decFlag) := by
  rw [bufCoreGetDmabufRef]
  split
  · exact h
  · split
    · exact h
    · exact h.set _ _

theorem Counted.putFree {s s' : Pool} {dmabuf uvm : Nat} {decFlag : Bool} (h : Counted s)
    (hs : bufCorePutFreeDmabuf s dmabuf uvm decFlag = some s') : Counted s' := by
  rw [bufCorePutFreeDmabuf] at hs
  split at hs
  · exact Option.some.inj hs ▸ h
  · split at hs
    · exact Option.some.inj hs ▸ h
    · obtain ⟨t, ht, rfl⟩ := Option.map_eq_some_iff.mp hs
      exact (h.queueIdle ht).set _ _

/-- Every call keeps the counter. -/
theorem Counted.step {s s' : Pool} (op : Op) (h : Counted s) (hstep : step s op = some s') :
    Counted s' := by
  cases op with
  | alloc dmabuf =>
    have halloc := h.alloc
    rw [DmaPool.step] at hstep
    cases hfound : bufCoreAllocDma s with
    | mk i t =>
      rw [hfound] at hstep halloc
      cases i with
      | none => exact Option.some.inj hstep ▸ halloc
      | some i => exact Option.some.inj hstep ▸ halloc.set i _
  | bind i j uvm => exact Option.some.inj hstep ▸ h.set i _
  | address i phyAddr => exact Option.some.inj hstep ▸ h.set i _
  | getFree => exact Option.some.inj hstep ▸ h.getFree
  | getRef dmabuf decFlag => exact Option.some.inj hstep ▸ h.getRef dmabuf decFlag
  | putFree dmabuf uvm decFlag => exact h.putFree hstep
  | reset => exact h.reset hstep
  | release uvm =>
    refine Option.some.inj hstep ▸ ?_
    rw [bufCoreReleaseDma]
    split
    · exact h
    · rfl

/-- In every reachable state the counter is the length of the queue. -/
theorem counted_reached {s : Pool} {dynamicMode : Bool}
    (h : Reaches step { dynamicMode := dynamicMode } s) : Counted s := by
  have hinit : Counted { dynamicMode := dynamicMode } := rfl
  exact reaches_invariant (fun _ op _ h hstep => h.step op hstep) hinit h

/-! ## What a release does to a slot -/

/-- The handle is bound, and no other one. -/
def OnlyBound (uvm : Nat) (d : BufCoreDma) : Prop :=
  (∃ j, d.uvmDma j = uvm) ∧ ∀ j, d.uvmDma j = 0 ∨ d.uvmDma j = uvm

instance (uvm : Nat) (d : BufCoreDma) : Decidable (OnlyBound uvm d) :=
  inferInstanceAs (Decidable (_ ∧ _))

/-- The slot is the same but for bindings to the handle, which may be gone. -/
def SameBut (uvm : Nat) (d d' : BufCoreDma) : Prop :=
  ∃ u, d' = { d with uvmDma := u } ∧
    ∀ j, u j = d.uvmDma j ∨ (d.uvmDma j = uvm ∧ u j = 0)

/-- A slot that the loop handles as it should: one that only the handle is bound to has a buffer, is
initialised and has the binding once; one that the handle is not bound to has another handle, or nothing
to recycle. -/
structure SlotRight (uvm : Nat) (d : BufCoreDma) : Prop where
  only : OnlyBound uvm d →
    d.dmabuf ≠ 0 ∧ d.inited = true ∧ ∃ j, d.uvmDma j = uvm ∧ ∀ k, k ≠ j → d.uvmDma k = 0
  other : (∀ j, d.uvmDma j ≠ uvm) → d.dmabuf ≠ 0 → d.inited = true → ∃ j, d.uvmDma j ≠ 0

instance (uvm : Nat) (d : BufCoreDma) : Decidable (SlotRight uvm d) :=
  decidable_of_iff (_ ∧ _) ⟨fun h => ⟨h.1, h.2⟩, fun h => ⟨h.only, h.other⟩⟩

theorem unbindFirst_cases (uvm : Nat) (u : Handles) :
    (∃ j, u j = uvm ∧ unbindFirst uvm u = Function.update u j 0) ∨
      ((∀ j, u j ≠ uvm) ∧ unbindFirst uvm u = u) := by
  rw [unbindFirst]
  cases hfind : (List.finRange fieldNum).find? fun j => u j = uvm with
  | some j => exact .inl ⟨j, by simpa using List.find?_some hfind, rfl⟩
  | none =>
    refine .inr ⟨fun j => ?_, rfl⟩
    simpa using List.find?_eq_none.mp hfind j (List.mem_finRange j)

theorem sameBut_unbindFirst (uvm : Nat) (d : BufCoreDma) :
    SameBut uvm d { d with uvmDma := unbindFirst uvm d.uvmDma } := by
  refine ⟨_, rfl, fun k => ?_⟩
  obtain ⟨j, hj, hu⟩ | ⟨-, hu⟩ := unbindFirst_cases uvm d.uvmDma
  · rw [hu]
    by_cases hk : k = j
    · rw [hk, Function.update_self]
      exact .inr ⟨hj, rfl⟩
    · rw [Function.update_of_ne hk]
      exact .inl rfl
  · rw [hu]
    exact .inl rfl

theorem SameBut.refl (uvm : Nat) (d : BufCoreDma) : SameBut uvm d d :=
  ⟨d.uvmDma, rfl, fun _ => .inl rfl⟩

theorem SameBut.used {uvm : Nat} {d d' : BufCoreDma} (h : SameBut uvm d d') : d'.used = d.used := by
  obtain ⟨u, rfl, -⟩ := h
  rfl

section Slot

variable {uvm : Nat} {d : BufCoreDma}

/-- The loop recycles a slot with the one binding to the handle. -/
theorem releaseSlot_only (huvm : uvm ≠ 0) (hr : SlotRight uvm d) (h : OnlyBound uvm d) :
    releaseSlot uvm d = { d.recycle with uvmDma := fun _ => 0 } := by
  obtain ⟨hbuf, hinit, j, hj, hrest⟩ := hr.only h
  have hunbind : unbindFirst uvm d.uvmDma = fun _ => 0 := by
    funext k
    obtain ⟨i, hi, hu⟩ | ⟨hnone, -⟩ := unbindFirst_cases uvm d.uvmDma
    · have hij : i = j := by
        by_contra hne
        exact huvm (hi.symm.trans (hrest i hne))
      rw [hu, hij]
      by_cases hk : k = j
      · rw [hk, Function.update_self]
      · rw [Function.update_of_ne hk, hrest k hk]
    · exact absurd hj (hnone j)
  simp only [releaseSlot, hbuf, if_false, hunbind, hinit, implies_true, and_self, if_true]
  rfl

/-- The loop leaves every other slot alone. -/
theorem releaseSlot_other (hr : SlotRight uvm d) (h : ¬ OnlyBound uvm d) :
    SameBut uvm d (releaseSlot uvm d) := by
  rw [releaseSlot]
  split
  · exact .refl uvm d
  · next hbuf =>
    have hkeep : ¬ (d.inited = true ∧ ∀ j, unbindFirst uvm d.uvmDma j = 0) := by
      rintro ⟨hinit, hzero⟩
      obtain ⟨i, hi, hu⟩ | ⟨hnone, hu⟩ := unbindFirst_cases uvm d.uvmDma
      · refine h ⟨⟨i, hi⟩, fun k => ?_⟩
        by_cases hk : k = i
        · exact .inr (hk ▸ hi)
        · refine .inl ?_
          rw [← hzero k, hu, Function.update_of_ne hk]
      · obtain ⟨k, hk⟩ := hr.other hnone hbuf hinit
        rw [hu] at hzero
        exact hk (hzero k)
    exact if_neg hkeep ▸ sameBut_unbindFirst uvm d

/-- Where a turn of the loop does what it should, the slot is one that it can handle. -/
theorem slotRight_of_release (huvm : uvm ≠ 0)
    (hrec : OnlyBound uvm d → releaseSlot uvm d = { d.recycle with uvmDma := fun _ => 0 })
    (hkept : ¬ OnlyBound uvm d → SameBut uvm d (releaseSlot uvm d)) : SlotRight uvm d := by
  constructor
  · intro h
    have heq := hrec h
    have hbuf : d.dmabuf ≠ 0 := fun hbuf => by
      obtain ⟨j, hj⟩ := h.1
      rw [releaseSlot, if_pos hbuf] at heq
      rw [heq] at hj
      exact huvm hj.symm
    simp only [releaseSlot, hbuf, if_false] at heq
    split at heq
    · next hdone =>
      refine ⟨hbuf, hdone.1, ?_⟩
      obtain ⟨j, hj, hu⟩ | ⟨hnone, -⟩ := unbindFirst_cases uvm d.uvmDma
      · refine ⟨j, hj, fun k hk => ?_⟩
        have hzero := hdone.2 k
        rwa [hu, Function.update_of_ne hk] at hzero
      · obtain ⟨j, hj⟩ := h.1
        exact absurd hj (hnone j)
    · exact absurd (congrArg BufCoreDma.dmabuf heq) hbuf
  · intro hnone hbuf hinit
    by_contra hzero
    push Not at hzero
    have hnot : ¬ OnlyBound uvm d := fun h => by
      obtain ⟨j, hj⟩ := h.1
      exact hnone j hj
    have hunbind : unbindFirst uvm d.uvmDma = d.uvmDma := by
      obtain ⟨j, hj, -⟩ | ⟨-, hu⟩ := unbindFirst_cases uvm d.uvmDma
      · exact absurd hj (hnone j)
      · exact hu
    obtain ⟨u, hsame, -⟩ := hkept hnot
    simp only [releaseSlot, hbuf, if_false, hunbind, hinit, hzero, implies_true, and_self,
      if_true] at hsame
    exact hbuf (congrArg BufCoreDma.dmabuf hsame).symm

end Slot

/-! ## The release -/

/-- The release recycles the slots that only the handle is bound to and leaves the others alone: their
contents, their place in the queue, and the counter of the queue. -/
structure ReleasesRight (s : Pool) (uvm : Nat) : Prop where
  recycled : ∀ i, OnlyBound uvm (s.dma i) → (bufCoreReleaseDma s uvm).dma i =
    { (s.dma i).recycle with uvmDma := fun _ => 0 }
  kept : ∀ i, ¬ OnlyBound uvm (s.dma i) →
    SameBut uvm (s.dma i) ((bufCoreReleaseDma s uvm).dma i)
  idle : ∀ i ∈ s.dmaFreeQue, ¬ OnlyBound uvm (s.dma i) → i ∈ (bufCoreReleaseDma s uvm).dmaFreeQue
  counted : (bufCoreReleaseDma s uvm).dmaFreeNum = (bufCoreReleaseDma s uvm).dmaFreeQue.length

/-- In dynamic mode a release is right exactly when every slot is one that the loop can handle and only
slots that it recycles are in the queue, which it empties. -/
theorem releasesRight_iff {s : Pool} {uvm : Nat} (hd : s.dynamicMode = true) (huvm : uvm ≠ 0) :
    ReleasesRight s uvm ↔
      (∀ i, SlotRight uvm (s.dma i)) ∧ ∀ i ∈ s.dmaFreeQue, OnlyBound uvm (s.dma i) := by
  have hrelease : bufCoreReleaseDma s uvm =
      { s with dma := fun i => releaseSlot uvm (s.dma i), dmaFreeQue := [], dmaFreeNum := 0 } := by
    rw [bufCoreReleaseDma, if_neg (by rw [hd]; exact Bool.noConfusion)]
  constructor
  · rintro ⟨hrec, hkept, hidle, -⟩
    rw [hrelease] at hrec hkept hidle
    refine ⟨fun i => slotRight_of_release huvm (hrec i) (hkept i), fun i hi => ?_⟩
    by_contra hnot
    exact absurd (hidle i hi hnot) List.not_mem_nil
  · rintro ⟨hslots, hque⟩
    refine ⟨fun i h => ?_, fun i h => ?_, fun i hi h => absurd (hque i hi) h, ?_⟩
    · rw [hrelease]
      exact releaseSlot_only huvm (hslots i) h
    · rw [hrelease]
      exact releaseSlot_other (hslots i) h
    · rw [hrelease]
      rfl

/-- Three buffers: the first is bound to the handle alone and waits in the queue, the second is bound to
another handle, and the third to both. -/
def boundBuffers : List Op :=
  [.alloc 0x100, .getRef 0x100 false, .bind 0 0 0xa, .alloc 0x300, .getRef 0x300 false, .bind 1 0 0xc,
    .alloc 0x200, .getRef 0x200 false, .bind 2 0 0xc, .bind 2 1 0xa, .putFree 0x100 0 false]

/-- The release of the handle takes the first buffer, and nothing else, out of the queue. -/
theorem releasesRight_iff_queued :
    ∃ s, run step { dynamicMode := true } boundBuffers = some s ∧ s.dmaFreeQue = [0] ∧
      ReleasesRight s 0xa := by
  refine ⟨_, rfl, by decide +kernel, (releasesRight_iff rfl (by decide)).mpr ?_⟩
  exact ⟨by decide +kernel, by decide +kernel⟩

/-- Three buffers: a handle is bound to the first, the second is about to get one, the third waits in the
queue. -/
def threeBuffers : List Op :=
  [.alloc 0x100, .getRef 0x100 false, .bind 0 0 0xa, .alloc 0x300, .getRef 0x300 false, .bind 1 0 0xc,
    .alloc 0x200, .getRef 0x200 false, .putFree 0x300 0xc false]

/-- The release of the first buffer's handle takes the other two away with it. -/
theorem release_recycles_others :
    ∃ s, run step { dynamicMode := true } threeBuffers = some s ∧ ¬ ReleasesRight s 0xa ∧
      ((s.dma 2).dmabuf, (s.dma 2).ref, (s.dma 2).used) = (0x200, 1, true) ∧
      ((bufCoreReleaseDma s 0xa).dma 2).used = false ∧
      s.dmaFreeQue = [1] ∧ (bufCoreReleaseDma s 0xa).dmaFreeQue = [] := by
  refine ⟨_, rfl, fun h => ?_, by decide +kernel, by decide +kernel, by decide +kernel, rfl⟩
  exact absurd (h.kept 2 (by decide +kernel)).used (by decide +kernel)

end MediaModules.DmaPool
