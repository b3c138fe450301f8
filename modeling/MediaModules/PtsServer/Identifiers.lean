import Mathlib.Tactic.Common
import MediaModules.PtsServer.Registry

/-!
# Identifiers over whole runs

What a call does to the identifiers in the table is said once, in `tableStep_effect`: it keeps
them, or fills one free slot. Identifiers stay unique exactly as long as no allocation takes a
number under which an instance is bound, and an instance that was returned stays the one its
identifier leads to exactly as long as that holds and there was a slot for every call.
-/
namespace MediaModules.PtsServer

open MediaModules.Lib.Run

/-! ## The effect of a call -/

/-- The entries of `t'` are in slots of `t` that hold their identifiers. -/
def Keeps (t t' : Table) : Prop :=
  ∀ j a, t'.slot j = some a → ∃ b, t.slot j = some b ∧ a.id = b.id

/-- The slot a call fills, and the identifier it puts there. -/
def newEntry (t : Table) : TableOp → Option (Fin maxInstanceNum × Int32)
  | .alloc kzalloc _ _ =>
    if kzalloc then (freeSlot 0 (maxDynamicInstanceNum - 1) t).map fun i => (i, slotId i) else none
  | .bind id kzalloc _ _ =>
    if kzalloc ∧ getIndexFromPtsserverId id t = none then
      (freeSlot maxDynamicInstanceNum maxInstanceNum t).map fun i => (i, id)
    else none
  | .release _ => none

/-- A call keeps the identifiers, or fills one free slot. -/
inductive Effect (t : Table) : Option (Fin maxInstanceNum × Int32) → Table → Prop
  | keeps {t' : Table} : Keeps t t' → Effect t none t'
  | fills {i : Fin maxInstanceNum} {id : Int32} {ins : PtsServerIns} : t.slot i = none →
      ins.mPtsServerInsId = id → Effect t (some (i, id)) (t.register i ins)

section

variable {t t' : Table} {i : Fin maxInstanceNum}

theorem Keeps.refl (t : Table) : Keeps t t := fun _ a ha => ⟨a, ha, rfl⟩

theorem Keeps.rewrite {e : Entry} (he : t.slot i = some e) {ins : PtsServerIns}
    (hid : ins.mPtsServerInsId = e.id) : Keeps t (t.set i (some { e with ins := ins })) := by
  intro j a ha
  rcases Table.set_slot_some ha with ⟨rfl, hnew⟩ | ⟨-, hold⟩
  · obtain rfl := Option.some.inj hnew
    exact ⟨e, he, hid⟩
  · exact ⟨a, hold, rfl⟩

theorem Keeps.cleared (t : Table) (i : Fin maxInstanceNum) : Keeps t (t.set i none) := by
  intro j a ha
  rcases Table.set_slot_some ha with ⟨-, hnew⟩ | ⟨-, hold⟩
  · exact nomatch hnew
  · exact ⟨a, hold, rfl⟩

theorem alloc_effect (kzalloc : Bool) (allocParm : Option AllocPara)
    (nodes : Option (NodeId → PtsNode)) :
    Effect t (newEntry t (.alloc kzalloc allocParm nodes))
      (ptsserverInsAlloc kzalloc allocParm nodes t).1 := by
  unfold ptsserverInsAlloc newEntry
  cases kzalloc with
  | false => exact .keeps (.refl t)
  | true =>
    simp only [if_true]
    cases hfree : freeSlot 0 (maxDynamicInstanceNum - 1) t with
    | none => exact .keeps (.refl t)
    | some i => exact .fills (freeSlot_some hfree).2.2 (newInstance_id ..)

theorem binder_effect (id : Int32) (kzalloc : Bool) (allocParm : Option AllocPara)
    (nodes : Option (NodeId → PtsNode)) :
    Effect t (newEntry t (.bind id kzalloc allocParm nodes))
      (ptsserverStaticInsBinder id kzalloc allocParm nodes t).1 := by
  dsimp only [newEntry]
  cases hget : getIndexFromPtsserverId id t with
  | some i =>
    obtain ⟨⟨e, he, -⟩, -⟩ := getIndex_some hget
    rw [binder_found hget he, if_neg fun hc => (nomatch hc.2)]
    exact .keeps (.rewrite he rfl)
  | none =>
    cases kzalloc with
    | false =>
      rw [binder_noMemory hget, if_neg fun hc => (nomatch hc.1)]
      exact .keeps (.refl t)
    | true =>
      rw [if_pos ⟨rfl, rfl⟩]
      cases hfree : freeSlot maxDynamicInstanceNum maxInstanceNum t with
      | none =>
        rw [binder_full hget hfree]
        exact .keeps (.refl t)
      | some i =>
        rw [binder_new hget hfree]
        exact .fills (freeSlot_some hfree).2.2 (newInstance_id ..)

theorem release_keeps (h : TableOk t) {id : Int32} {ret : Int}
    (hr : ptsserverInsRelease id t = some (t', ret)) : Keeps t t' := by
  unfold ptsserverInsRelease at hr
  split at hr
  · cases hr
    exact .refl t
  · split at hr
    · cases hr
      exact .refl t
    · rename_i e he
      dsimp only at hr
      split at hr
      · obtain ⟨ins, h1, -, hid⟩ := ptsserverInsReset_idle
          { e.ins with mRef := e.ins.mRef - 1 } (h.idle _ e he)
        rw [h1] at hr
        cases hr
        exact .rewrite he hid
      · cases hr
        exact .cleared t _

theorem tableStep_effect (h : TableOk t) {op : TableOp} (hs : tableStep t op = some t') :
    Effect t (newEntry t op) t' := by
  cases op with
  | alloc kzalloc allocParm nodes =>
    obtain rfl := Option.some.inj hs
    exact alloc_effect kzalloc allocParm nodes
  | bind id kzalloc allocParm nodes =>
    obtain rfl := Option.some.inj hs
    exact binder_effect id kzalloc allocParm nodes
  | release id =>
    obtain ⟨⟨t'', ret⟩, hr, rfl⟩ := Option.map_eq_some_iff.mp hs
    exact .keeps (release_keeps h hr)

theorem tableStep_keeps_tableOk (h : TableOk t) {op : TableOp} (hs : tableStep t op = some t') :
    TableOk t' := by
  obtain ⟨t'', h1, h'⟩ := tableStep_tableOk t op h
  rw [hs] at h1
  exact Option.some.inj h1 ▸ h'

end

/-! ## Unique identifiers -/

/-- Every entry is the one its identifier leads to. -/
def Found (resolve : Int32 → Table → Option (Fin maxInstanceNum)) (t : Table) : Prop :=
  ∀ i a, t.slot i = some a → resolve a.id t = some i

/-- No two entries have the same identifier, and each is found under its own. -/
structure IdsUnique (t : Table) : Prop where
  unique : ∀ i j a b, t.slot i = some a → t.slot j = some b → a.id = b.id → i = j
  found : Found getIndexFromPtsserverId t

/-- An allocation does not take a number under which an instance is bound. -/
def NumberFree (t : Table) : TableOp → Prop
  | .alloc kzalloc _ _ =>
    kzalloc = true → ∀ i, freeSlot 0 (maxDynamicInstanceNum - 1) t = some i →
      ∀ j a, t.slot j = some a → a.id ≠ slotId i
  | _ => True

section

variable {t t' : Table} {op : TableOp}

theorem found_iff_unique :
    Found getIndexFromPtsserverId t ↔
      ∀ i j a b, t.slot i = some a → t.slot j = some b → a.id = b.id → i = j := by
  constructor
  · intro h i j a b ha hb hid
    have hi := h i a ha
    rw [hid, h j b hb] at hi
    exact (Option.some.inj hi).symm
  · intro h i a ha
    exact getIndex_eq ha rfl fun j hj b hb hid => absurd (h j i b a hb ha hid) (Fin.ne_of_lt hj)

theorem idsUnique_iff_found : IdsUnique t ↔ Found getIndexFromPtsserverId t :=
  ⟨IdsUnique.found, fun h => ⟨found_iff_unique.mp h, h⟩⟩

/-- A call keeps identifiers unique exactly when the one it puts into a slot is not in use. -/
theorem Effect.found_iff {e : Option (Fin maxInstanceNum × Int32)} (he : Effect t e t')
    (h : Found getIndexFromPtsserverId t) :
    Found getIndexFromPtsserverId t' ↔
      ∀ i id, e = some (i, id) → ∀ j a, t.slot j = some a → a.id ≠ id := by
  rw [found_iff_unique] at h ⊢
  cases he with
  | keeps hk =>
    refine iff_of_true (fun i j a b ha hb hid => ?_) fun i id he => (nomatch he)
    obtain ⟨a', ha', hida⟩ := hk i a ha
    obtain ⟨b', hb', hidb⟩ := hk j b hb
    exact h i j a' b' ha' hb' (hida ▸ hidb ▸ hid)
  | @fills i id ins hfree hins =>
    constructor
    · intro hu i' id' he j a ha hid
      obtain ⟨rfl, rfl⟩ := Prod.mk.inj (Option.some.inj he)
      have hji : j ≠ i := by
        rintro rfl
        rw [hfree] at ha
        exact nomatch ha
      have ha' : (t.register i ins).slot j = some a := (Table.set_slot_ne _ _ hji).trans ha
      exact hji (hu j i a ⟨t.next, ins⟩ ha' (Table.set_slot ..) (hid.trans hins.symm))
    · intro hu j k a b ha hb hid
      have hnew := hu i id rfl
      rcases Table.register_some ha with ⟨hj, rfl⟩ | ⟨-, ha⟩ <;>
        rcases Table.register_some hb with ⟨hk, rfl⟩ | ⟨-, hb⟩
      · exact hj.trans hk.symm
      · exact absurd (hid.symm.trans hins) (hnew k b hb)
      · exact absurd (hid.trans hins) (hnew j a ha)
      · exact h j k a b ha hb hid

/-- The binder looks its identifier up, the allocator does not. -/
theorem numberFree_iff :
    NumberFree t op ↔
      ∀ i id, newEntry t op = some (i, id) → ∀ j a, t.slot j = some a → a.id ≠ id := by
  cases op with
  | alloc kzalloc allocParm nodes =>
    cases kzalloc with
    | false => exact iff_of_true (fun h => (nomatch h)) fun i id he => (nomatch he)
    | true =>
      simp only [NumberFree, newEntry, if_true, true_implies, Option.map_eq_some_iff,
        Prod.mk.injEq]
      constructor
      · rintro h i id ⟨k, hk, rfl, rfl⟩
        exact h k hk
      · exact fun h i hi => h i (slotId i) ⟨i, hi, rfl, rfl⟩
  | bind id kzalloc allocParm nodes =>
    apply iff_of_true trivial
    intro i id' he j a ha
    dsimp only [newEntry] at he
    split at he
    · rename_i hc
      obtain ⟨k, -, hk⟩ := Option.map_eq_some_iff.mp he
      obtain ⟨-, rfl⟩ := Prod.mk.inj hk
      exact getIndex_none.mp hc.2 j a ha
    · exact nomatch he
  | release id => exact iff_of_true trivial fun i id he => (nomatch he)

end

/-- `Q`, which says that identifiers are unique, holds all along a sequence of calls exactly
when no allocation takes a number under which an instance is bound. -/
theorem always_unique_iff {Q : Table → Prop} (hQ : ∀ t, Q t ↔ Found getIndexFromPtsserverId t)
    (ops : List TableOp) :
    Always tableStep Q ptsserverInit ops ↔ Guarded tableStep NumberFree ptsserverInit ops := by
  obtain ⟨t, hrun, -⟩ := run_total tableStep_tableOk init_tableOk ops
  have hinit : Found getIndexFromPtsserverId ptsserverInit := fun _ _ ha => (nomatch ha)
  refine always_iff_guarded (P := fun t => TableOk t ∧ Found getIndexFromPtsserverId t)
    (D := fun _ => True) (fun t h => (hQ t).mpr h.2) ?_ ?_ ⟨init_tableOk, hinit⟩
    (fun _ _ => trivial) hrun
  · intro t op t' h _ hfree hs
    exact ⟨tableStep_keeps_tableOk h.1 hs,
      ((tableStep_effect h.1 hs).found_iff h.2).mpr (numberFree_iff.mp hfree)⟩
  · intro t op t' h _ hfree hs hu
    exact hfree (numberFree_iff.mpr (((tableStep_effect h.1 hs).found_iff h.2).mp ((hQ t').mp hu)))

/-- Identifiers are unique all along a sequence of calls exactly when no allocation takes a
number under which an instance is bound. -/
theorem ids_unique_iff (ops : List TableOp) :
    (run tableStep ptsserverInit ops).isSome ∧
      (Always tableStep IdsUnique ptsserverInit ops ↔
        Guarded tableStep NumberFree ptsserverInit ops) := by
  obtain ⟨t, hrun, -⟩ := run_total tableStep_tableOk init_tableOk ops
  exact ⟨Option.isSome_iff_exists.mpr ⟨t, hrun⟩, always_unique_iff (fun _ => idsUnique_iff_found) ops⟩

/-- An instance bound under 0 before the first allocation shares its identifier with it. -/
theorem bound_number_taken :
    ¬ Always tableStep IdsUnique ptsserverInit [.bind 0 true none none, .alloc true none none] := by
  intro h
  obtain ⟨t, hrun, hu⟩ : ∃ t, run tableStep ptsserverInit
      [.bind 0 true none none, .alloc true none none] = some t ∧ IdsUnique t :=
    ⟨_, rfl, always_last h rfl⟩
  obtain rfl := Option.some.inj hrun
  have hsame := hu.unique 0 10 _ _ rfl rfl (by decide)
  exact absurd hsame (by decide)

/-! ## Returned instances -/

/-- Every call of the sequence returns 0 only with a registered instance and fails without an
effect when there is no slot, and as long as an instance is registered, its identifier leads
later calls to it. -/
def InstancesKept (resolve : Int32 → Table → Option (Fin maxInstanceNum)) (ops : List TableOp) :
    Prop :=
  Guarded tableStep (CallOk resolve) ptsserverInit ops ∧
    Always tableStep (Found resolve) ptsserverInit ops

section

variable {t t' : Table} {op : TableOp}

/-- A call that binds to a number puts the identifier into the slot of that number. -/
theorem BoundToNumber.newEntry (h : BoundToNumber t op) {i : Fin maxInstanceNum} {id : Int32}
    (he : newEntry t op = some (i, id)) : slotId i = id := by
  cases op with
  | alloc kzalloc allocParm nodes =>
    dsimp only [PtsServer.newEntry] at he
    split at he
    · obtain ⟨k, -, hk⟩ := Option.map_eq_some_iff.mp he
      obtain ⟨rfl, rfl⟩ := Prod.mk.inj hk
      rfl
    · exact nomatch he
  | bind id' kzalloc allocParm nodes =>
    dsimp only [PtsServer.newEntry] at he
    split at he
    · rename_i hc
      obtain ⟨k, hfree, hk⟩ := Option.map_eq_some_iff.mp he
      obtain ⟨rfl, rfl⟩ := Prod.mk.inj hk
      apply h k
      unfold boundSlot
      rw [hc.2]
      exact (if_pos hc.1).trans hfree
    · exact nomatch he
  | release id => exact nomatch he

theorem Effect.found_slotOfId {e : Option (Fin maxInstanceNum × Int32)} (he : Effect t e t')
    (h : Found slotOfId t) (hnum : ∀ i id, e = some (i, id) → slotId i = id) :
    Found slotOfId t' := by
  intro j a ha
  rw [slotOfId_eq]
  cases he with
  | keeps hk =>
    obtain ⟨b, hb, hid⟩ := hk j a ha
    rw [hid]
    exact slotOfId_eq.mp (h j b hb)
  | @fills i id ins hfree hins =>
    rcases Table.register_some ha with ⟨rfl, rfl⟩ | ⟨-, ha⟩
    · exact (hnum j id rfl).trans hins.symm
    · exact slotOfId_eq.mp (h j a ha)

end

/-- What was returned is registered and stays the instance its identifier leads to exactly
when every call finds an instance, a slot or no memory, and no allocation takes a number under
which an instance is bound. The calls that take the identifier as a slot number are led right
exactly when every bound identifier is the number of its slot. -/
theorem returned_registered_iff (ops : List TableOp) :
    (run tableStep ptsserverInit ops).isSome ∧
      (InstancesKept getIndexFromPtsserverId ops ↔
        Guarded tableStep (fun t op => SlotLeft t op ∧ NumberFree t op) ptsserverInit ops) ∧
      (InstancesKept slotOfId ops ↔
        Guarded tableStep (fun t op => SlotLeft t op ∧ BoundToNumber t op) ptsserverInit ops) := by
  obtain ⟨t, hrun, -⟩ := run_total tableStep_tableOk init_tableOk ops
  have hkeep : ∀ t op t', TableOk t → tableStep t op = some t' → TableOk t' :=
    fun t op t' h hs => tableStep_keeps_tableOk h hs
  refine ⟨Option.isSome_iff_exists.mpr ⟨t, hrun⟩, ?_, ?_⟩
  · unfold InstancesKept
    rw [guarded_and, always_unique_iff (fun _ => Iff.rfl),
      guarded_congr hkeep (fun t op h => getIndex_callOk_iff h op) init_tableOk]
  · have hcall : Guarded tableStep (CallOk slotOfId) ptsserverInit ops ↔
        Guarded tableStep (fun t op => SlotLeft t op ∧ BoundToNumber t op) ptsserverInit ops :=
      guarded_congr hkeep (fun t op h => slotOfId_callOk_iff h op) init_tableOk
    refine ⟨fun h => hcall.mp h.1, fun h => ⟨hcall.mpr h, ?_⟩⟩
    have hall : Always tableStep (fun t => TableOk t ∧ Found slotOfId t) ptsserverInit ops := by
      refine always_of_guarded ?_ ⟨init_tableOk, fun _ _ ha => (nomatch ha)⟩ h
      intro t op t' hp hok hs
      exact ⟨hkeep t op t' hp.1 hs, (tableStep_effect hp.1 hs).found_slotOfId hp.2
        fun i id he => hok.2.newEntry he⟩
    exact hall.imp fun t hp => hp.2

/-- The tenth allocation returns 0 and an instance that is in no slot. -/
theorem alloc_unregistered :
    ¬ InstancesKept getIndexFromPtsserverId (List.replicate 10 (.alloc true none none)) := by
  rintro ⟨h, -⟩
  have hsplit : Guarded tableStep (CallOk getIndexFromPtsserverId) ptsserverInit
      (List.replicate 9 (.alloc true none none) ++ [.alloc true none none]) := h
  obtain ⟨t, hrun, hok⟩ : ∃ t, run tableStep ptsserverInit
      (List.replicate 9 (.alloc true none none)) = some t ∧
        CallOk getIndexFromPtsserverId t (.alloc true none none) :=
    ⟨_, rfl, guarded_last hsplit rfl⟩
  obtain rfl := Option.some.inj hrun
  obtain ⟨id, r, hid, -⟩ := hok.1 rfl
  exact nomatch hid

end MediaModules.PtsServer
