import Mathlib.Tactic.Common
import Mathlib.Data.Fintype.Basic
import MediaModules.Lib.Run
import MediaModules.PtsServer.Instance

/-!
# The table of instances

`vPtsServerInsList` with its two allocators and the release. An instance is the memory at an
address; one that is not in the table can only be reached through the pointer that was
returned for it.
-/
namespace MediaModules.PtsServer

open MediaModules.Lib.Run

abbrev Ref := Nat

/-- `MAX_INSTANCE_NUM`. -/
abbrev maxInstanceNum : Nat := 40

/-- `MAX_DYNAMIC_INSTANCE_NUM`. -/
abbrev maxDynamicInstanceNum : Nat := 10

/-- An entry of the table. -/
structure Entry where
  ref : Ref
  ins : PtsServerIns

/-- `vPtsServerInsList` and the next address of `kzalloc`. -/
structure Table where
  slot : Fin maxInstanceNum → Option Entry
  next : Ref

/-- What a call returns and writes through its pointers. -/
structure Ret where
  ret : Int
  pServerInsId : Option Int32
  pIns : Option Ref
  deriving Repr, DecidableEq

/-- `ptsserver_init`. -/
def ptsserverInit : Table := ⟨fun _ => none, 0⟩

def Table.set (t : Table) (i : Fin maxInstanceNum) (e : Option Entry) : Table :=
  { t with slot := Function.update t.slot i e }

/-- A slot number as an `s32`. -/
def slotId (i : Fin maxInstanceNum) : Int32 := Int32.ofNat i

/-- The identifier of an entry. -/
def Entry.id (e : Entry) : Int32 := e.ins.mPtsServerInsId

/-- `get_index_from_ptsserver_id`. -/
def getIndexFromPtsserverId (id : Int32) (t : Table) : Option (Fin maxInstanceNum) :=
  (List.finRange maxInstanceNum).find? fun i => (t.slot i).any fun e => e.id = id

/-- The first free slot from `lo` up to `hi`. -/
def freeSlot (lo hi : Nat) (t : Table) : Option (Fin maxInstanceNum) :=
  (List.finRange maxInstanceNum).find? fun i => lo ≤ i.val ∧ i.val < hi ∧ (t.slot i).isNone

/-- The instance that goes into a slot: zeroed, with its identifier and one reference. -/
def newInstance (id : Int32) (allocParm : Option AllocPara)
    (nodes : Option (NodeId → PtsNode)) : PtsServerIns :=
  (ptsserverInsInitSyncinfo (allocParm.getD defaultAllocPara) nodes
    { PtsServerIns.zero (fun _ => ⟨0, 0, 0, 0, 0, 0⟩) with
      mPtsServerInsId := id, mRef := 1 }).1

/-- `ptsserver_ins_alloc`. `kzalloc` and `nodes` say whether the allocations succeed. The loop
ends at `MAX_DYNAMIC_INSTANCE_NUM - 1`, which the test for failure never sees. -/
def ptsserverInsAlloc (kzalloc : Bool) (allocParm : Option AllocPara)
    (nodes : Option (NodeId → PtsNode)) (t : Table) : Table × Ret :=
  if kzalloc then
    let t' : Table := { t with next := t.next + 1 }
    match freeSlot 0 (maxDynamicInstanceNum - 1) t with
    | some i =>
      (t'.set i (some ⟨t.next, newInstance (slotId i) allocParm nodes⟩),
        ⟨0, some (slotId i), some t.next⟩)
    | none => (t', ⟨0, none, some t.next⟩)
  else (t, ⟨-1, none, none⟩)

/-- `ptsserver_static_ins_binder`. -/
def ptsserverStaticInsBinder (id : Int32) (kzalloc : Bool) (allocParm : Option AllocPara)
    (nodes : Option (NodeId → PtsNode)) (t : Table) : Table × Ret :=
  match getIndexFromPtsserverId id t with
  | some i =>
    match t.slot i with
    | some e =>
      (t.set i (some { e with ins := { e.ins with mRef := e.ins.mRef + 1 } }),
        ⟨0, none, some e.ref⟩)
    | none => (t, ⟨-1, none, none⟩)
  | none =>
    if kzalloc then
      let t' : Table := { t with next := t.next + 1 }
      match freeSlot maxDynamicInstanceNum maxInstanceNum t with
      | some i =>
        (t'.set i (some ⟨t.next, newInstance id allocParm nodes⟩), ⟨0, none, some t.next⟩)
      | none => (t', ⟨0, none, some t.next⟩)
    else (t, ⟨-1, none, none⟩)

/-- `ptsserver_ins_release`. -/
def ptsserverInsRelease (id : Int32) (t : Table) : Option (Table × Int) :=
  match getIndexFromPtsserverId id t with
  | none => some (t, -1)
  | some i =>
    match t.slot i with
    | none => some (t, -1)
    | some e =>
      let ins := { e.ins with mRef := e.ins.mRef - 1 }
      if ins.mRef > 0 then
        (ptsserverInsReset ins).map fun ins => (t.set i (some { e with ins := ins }), 0)
      else some (t.set i none, 0)

/-- The calls on the table. -/
inductive TableOp
  | alloc (kzalloc : Bool) (allocParm : Option AllocPara) (nodes : Option (NodeId → PtsNode))
  | bind (id : Int32) (kzalloc : Bool) (allocParm : Option AllocPara)
      (nodes : Option (NodeId → PtsNode))
  | release (id : Int32)

def tableStep (t : Table) : TableOp → Option Table
  | .alloc kzalloc allocParm nodes => some (ptsserverInsAlloc kzalloc allocParm nodes t).1
  | .bind id kzalloc allocParm nodes =>
    some (ptsserverStaticInsBinder id kzalloc allocParm nodes t).1
  | .release id => (ptsserverInsRelease id t).map Prod.fst

/-! ## Slots -/

namespace Table

@[simp] theorem set_slot (t : Table) (i : Fin maxInstanceNum) (e : Option Entry) :
    (t.set i e).slot i = e :=
  Function.update_self ..

theorem set_slot_ne (t : Table) {i j : Fin maxInstanceNum} (e : Option Entry) (h : j ≠ i) :
    (t.set i e).slot j = t.slot j :=
  Function.update_of_ne h ..

/-- An entry of the changed table is the new one or one of the old. -/
theorem set_slot_some {t : Table} {i j : Fin maxInstanceNum} {e : Option Entry} {a : Entry}
    (h : (t.set i e).slot j = some a) : j = i ∧ e = some a ∨ j ≠ i ∧ t.slot j = some a := by
  by_cases hj : j = i
  · subst hj
    rw [set_slot] at h
    exact .inl ⟨rfl, h⟩
  · rw [set_slot_ne t e hj] at h
    exact .inr ⟨hj, h⟩

/-- The table after a new instance was registered. -/
def register (t : Table) (i : Fin maxInstanceNum) (ins : PtsServerIns) : Table :=
  Table.set { t with next := t.next + 1 } i (some ⟨t.next, ins⟩)

theorem register_some {t : Table} {i j : Fin maxInstanceNum} {ins : PtsServerIns} {a : Entry}
    (h : (t.register i ins).slot j = some a) :
    j = i ∧ a = ⟨t.next, ins⟩ ∨ j ≠ i ∧ t.slot j = some a := by
  rcases set_slot_some h with ⟨hj, ha⟩ | h
  · exact .inl ⟨hj, (Option.some.inj ha).symm⟩
  · exact .inr h

end Table

theorem slotId_inj {i j : Fin maxInstanceNum} (h : slotId i = slotId j) : i = j := by
  revert i j
  decide

end MediaModules.PtsServer
