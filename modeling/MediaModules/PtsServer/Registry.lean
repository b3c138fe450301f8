import Mathlib.Tactic.Common
import MediaModules.PtsServer.Table

/-!
# Registered instances

`TableOk` holds of every table a run reaches: addresses are registered once and a dynamic
slot holds the instance with its own number. What an allocator returns is then registered and
found by the next call exactly when there was a slot for it.
-/
namespace MediaModules.PtsServer

open MediaModules.Lib.Run

/-! ## Lookups -/

/-- A search through the slots stops at the first match. -/
theorem find?_finRange_lt {n : Nat} {p : Fin n → Bool} {k : Fin n}
    (h : (List.finRange n).find? p = some k) {j : Fin n} (hj : j < k) : p j = false := by
  obtain ⟨-, as, bs, heq, hnot⟩ := List.find?_eq_some_iff_append.mp h
  have hmem : j ∈ as ++ k :: bs := heq ▸ List.mem_finRange j
  have hlt : (as ++ k :: bs).Pairwise (· < ·) := heq ▸ List.pairwise_lt_finRange n
  rcases List.mem_append.mp hmem with hj' | hj'
  · simpa using hnot j hj'
  · have hle : k ≤ j := by
      rcases List.mem_cons.mp hj' with rfl | hj'
      · exact Fin.le_refl j
      · have hk := (List.pairwise_cons.mp (List.pairwise_append.mp hlt).2.1).1 j hj'
        exact Fin.le_of_lt hk
    exact absurd hj (Fin.not_lt.mpr hle)

section

variable {t : Table} {i : Fin maxInstanceNum} {id : Int32}

theorem getIndex_none :
    getIndexFromPtsserverId id t = none ↔ ∀ i a, t.slot i = some a → a.id ≠ id := by
  unfold getIndexFromPtsserverId
  rw [List.find?_eq_none]
  constructor
  · intro h i a ha
    simpa [ha] using h i (List.mem_finRange i)
  · intro h i _
    cases ha : t.slot i with
    | none => simp
    | some a => simpa using h i a ha

theorem getIndex_some (h : getIndexFromPtsserverId id t = some i) :
    (∃ a, t.slot i = some a ∧ a.id = id) ∧
      ∀ j < i, ∀ b, t.slot j = some b → b.id ≠ id := by
  unfold getIndexFromPtsserverId at h
  refine ⟨?_, fun j hj b hb => ?_⟩
  · simpa [Option.any_eq_true] using List.find?_some h
  · simpa [hb] using find?_finRange_lt h hj

/-- The first entry with the identifier is found. -/
theorem getIndex_eq {a : Entry} (ha : t.slot i = some a) (hid : a.id = id)
    (hlt : ∀ j < i, ∀ b, t.slot j = some b → b.id ≠ id) :
    getIndexFromPtsserverId id t = some i := by
  cases h : getIndexFromPtsserverId id t with
  | none => exact absurd hid (getIndex_none.mp h i a ha)
  | some k =>
    obtain ⟨⟨b, hb, hbid⟩, hk⟩ := getIndex_some h
    rcases lt_trichotomy k i with hki | rfl | hik
    · exact absurd hbid (hlt k hki b hb)
    · rfl
    · exact absurd hid (hk i hik a ha)

theorem freeSlot_some {lo hi : Nat} (h : freeSlot lo hi t = some i) :
    lo ≤ i.val ∧ i.val < hi ∧ t.slot i = none := by
  simpa using List.find?_some h

theorem freeSlot_none {lo hi : Nat} :
    freeSlot lo hi t = none ↔ ∀ i, lo ≤ i.val → i.val < hi → t.slot i ≠ none := by
  unfold freeSlot
  rw [List.find?_eq_none]
  simp

end

/-! ## The invariant -/

/-- Addresses are registered once and dynamic slots hold instances with their own number. No
call on the table checks anything in. -/
structure TableOk (t : Table) : Prop where
  distinct : ∀ i j a b, t.slot i = some a → t.slot j = some b → a.ref = b.ref → i = j
  fresh : ∀ i a, t.slot i = some a → a.ref < t.next
  dynamic : ∀ i a, t.slot i = some a → i.val < maxDynamicInstanceNum → a.id = slotId i
  idle : ∀ i a, t.slot i = some a → a.ins.ptsList = []

@[simp] theorem newInstance_id (id : Int32) (allocParm : Option AllocPara)
    (nodes : Option (NodeId → PtsNode)) :
    (newInstance id allocParm nodes).mPtsServerInsId = id := by
  cases nodes <;> rfl

theorem newInstance_idle (id : Int32) (allocParm : Option AllocPara)
    (nodes : Option (NodeId → PtsNode)) : (newInstance id allocParm nodes).ptsList = [] := by
  cases nodes <;> rfl

/-- A reset does not touch the identifier. -/
theorem ptsserverInsReset_idle (ins : PtsServerIns) (h : ins.ptsList = []) :
    ∃ ins', ptsserverInsReset ins = some ins' ∧ ins'.ptsList = [] ∧
      ins'.mPtsServerInsId = ins.mPtsServerInsId := by
  unfold ptsserverInsReset
  rw [h]
  exact ⟨_, rfl, h, rfl⟩

namespace TableOk

variable {t : Table} {i : Fin maxInstanceNum}

theorem registered (h : TableOk t) {ins : PtsServerIns} (hidle : ins.ptsList = [])
    (hdyn : i.val < maxDynamicInstanceNum → ins.mPtsServerInsId = slotId i) :
    TableOk (t.register i ins) := by
  refine ⟨?_, ?_, ?_, ?_⟩
  · intro j k a b ha hb hab
    rcases Table.register_some ha with ⟨hj, rfl⟩ | ⟨-, ha⟩ <;>
      rcases Table.register_some hb with ⟨hk, rfl⟩ | ⟨-, hb⟩
    · exact hj.trans hk.symm
    · exact absurd hab.symm (Nat.ne_of_lt (h.fresh k b hb))
    · exact absurd hab (Nat.ne_of_lt (h.fresh j a ha))
    · exact h.distinct j k a b ha hb hab
  · intro j a ha
    rcases Table.register_some ha with ⟨-, rfl⟩ | ⟨-, ha⟩
    · exact Nat.lt_succ_self _
    · exact Nat.lt_succ_of_lt (h.fresh j a ha)
  · intro j a ha hj
    rcases Table.register_some ha with ⟨rfl, rfl⟩ | ⟨-, ha⟩
    · exact hdyn hj
    · exact h.dynamic j a ha hj
  · intro j a ha
    rcases Table.register_some ha with ⟨-, rfl⟩ | ⟨-, ha⟩
    · exact hidle
    · exact h.idle j a ha

/-- An instance is written, its identifier apart. -/
theorem rewrite (h : TableOk t) {e : Entry} (he : t.slot i = some e) {ins : PtsServerIns}
    (hid : ins.mPtsServerInsId = e.id) (hidle : ins.ptsList = []) :
    TableOk (t.set i (some { e with ins := ins })) := by
  have hold : ∀ j a, (t.set i (some { e with ins := ins })).slot j = some a →
      ∃ b, t.slot j = some b ∧ a.ref = b.ref ∧ a.id = b.id ∧ a.ins.ptsList = [] := by
    intro j a ha
    rcases Table.set_slot_some ha with ⟨hj, hnew⟩ | ⟨-, hold⟩
    · obtain rfl := Option.some.inj hnew
      exact ⟨e, hj ▸ he, rfl, hid, hidle⟩
    · exact ⟨a, hold, rfl, rfl, h.idle j a hold⟩
  refine ⟨?_, ?_, ?_, ?_⟩
  · intro j k a b ha hb hab
    obtain ⟨a', ha', hra, -⟩ := hold j a ha
    obtain ⟨b', hb', hrb, -⟩ := hold k b hb
    exact h.distinct j k a' b' ha' hb' (hra ▸ hrb ▸ hab)
  · intro j a ha
    obtain ⟨a', ha', hra, -⟩ := hold j a ha
    exact hra ▸ h.fresh j a' ha'
  · intro j a ha hj
    obtain ⟨a', ha', -, hida, -⟩ := hold j a ha
    exact hida.trans (h.dynamic j a' ha' hj)
  · intro j a ha
    obtain ⟨-, -, -, -, hidle⟩ := hold j a ha
    exact hidle

theorem cleared (h : TableOk t) : TableOk (t.set i none) := by
  have hold : ∀ j a, (t.set i none).slot j = some a → t.slot j = some a := by
    intro j a ha
    rcases Table.set_slot_some ha with ⟨-, ha⟩ | ⟨-, ha⟩
    · exact nomatch ha
    · exact ha
  exact ⟨fun j k a b ha hb => h.distinct j k a b (hold j a ha) (hold k b hb),
    fun j a ha => h.fresh j a (hold j a ha), fun j a ha => h.dynamic j a (hold j a ha),
    fun j a ha => h.idle j a (hold j a ha)⟩

/-- An address that is not registered is used up. -/
theorem next_succ (h : TableOk t) : TableOk { t with next := t.next + 1 } :=
  ⟨h.distinct, fun i a ha => Nat.lt_succ_of_lt (h.fresh i a ha), h.dynamic, h.idle⟩

end TableOk

section

variable {t : Table}

theorem ptsserverInsAlloc_tableOk (h : TableOk t) (kzalloc : Bool) (allocParm : Option AllocPara)
    (nodes : Option (NodeId → PtsNode)) :
    TableOk (ptsserverInsAlloc kzalloc allocParm nodes t).1 := by
  unfold ptsserverInsAlloc
  split
  · dsimp only
    split
    · rename_i i _
      exact h.registered (newInstance_idle _ _ _) fun _ => newInstance_id _ _ _
    · exact h.next_succ
  · exact h

theorem ptsserverStaticInsBinder_tableOk (h : TableOk t) (id : Int32) (kzalloc : Bool)
    (allocParm : Option AllocPara) (nodes : Option (NodeId → PtsNode)) :
    TableOk (ptsserverStaticInsBinder id kzalloc allocParm nodes t).1 := by
  unfold ptsserverStaticInsBinder
  split
  · split
    · rename_i e he
      exact h.rewrite he rfl (h.idle _ e he)
    · exact h
  · split
    · dsimp only
      split
      · rename_i i hfree
        apply h.registered (newInstance_idle _ _ _)
        intro hi
        exact absurd hi (Nat.not_lt.mpr (freeSlot_some hfree).1)
      · exact h.next_succ
    · exact h

theorem ptsserverInsRelease_tableOk (h : TableOk t) (id : Int32) :
    ∃ t' ret, ptsserverInsRelease id t = some (t', ret) ∧ TableOk t' := by
  unfold ptsserverInsRelease
  split
  · exact ⟨t, -1, rfl, h⟩
  · split
    · exact ⟨t, -1, rfl, h⟩
    · rename_i e he
      dsimp only
      split
      · obtain ⟨ins, h1, hidle, hid⟩ := ptsserverInsReset_idle
          { e.ins with mRef := e.ins.mRef - 1 } (h.idle _ e he)
        rw [h1]
        exact ⟨_, 0, rfl, h.rewrite he hid hidle⟩
      · exact ⟨_, 0, rfl, h.cleared⟩

theorem tableStep_tableOk (t : Table) (op : TableOp) (h : TableOk t) :
    ∃ t', tableStep t op = some t' ∧ TableOk t' := by
  cases op with
  | alloc kzalloc allocParm nodes =>
    exact ⟨_, rfl, ptsserverInsAlloc_tableOk h kzalloc allocParm nodes⟩
  | bind id kzalloc allocParm nodes =>
    exact ⟨_, rfl, ptsserverStaticInsBinder_tableOk h id kzalloc allocParm nodes⟩
  | release id =>
    obtain ⟨t', ret, h1, h'⟩ := ptsserverInsRelease_tableOk h id
    refine ⟨t', ?_, h'⟩
    dsimp only [tableStep]
    rw [h1]
    rfl

end

theorem init_tableOk : TableOk ptsserverInit :=
  ⟨fun _ _ _ _ h => (nomatch h), fun _ _ h => (nomatch h), fun _ _ h => (nomatch h),
    fun _ _ h => (nomatch h)⟩

/-! ## What an allocator returns -/

/-- The slot of the calls that take an identifier as a slot number. -/
def slotOfId (id : Int32) (_ : Table) : Option (Fin maxInstanceNum) :=
  (List.finRange maxInstanceNum).find? fun i => slotId i = id

/-- The instance at `r` is in exactly one slot, where `resolve` finds the identifier. -/
def ReturnedOk (resolve : Int32 → Table → Option (Fin maxInstanceNum)) (t : Table) (id : Int32)
    (r : Ref) : Prop :=
  ∃ i, resolve id t = some i ∧ (t.slot i).map Entry.ref = some r ∧
    ∀ j, (t.slot j).map Entry.ref = some r → j = i

/-- A call returns 0 only with a registered instance, and fails without an effect on the slots
when there is none left for it. -/
def CallOk (resolve : Int32 → Table → Option (Fin maxInstanceNum)) (t : Table) : TableOp → Prop
  | .alloc kzalloc allocParm nodes =>
    let p := ptsserverInsAlloc kzalloc allocParm nodes t
    (p.2.ret = 0 → ∃ id r, p.2.pServerInsId = some id ∧ p.2.pIns = some r ∧
      ReturnedOk resolve p.1 id r) ∧
    (freeSlot 0 (maxDynamicInstanceNum - 1) t = none → p.2.ret < 0 ∧ p.1.slot = t.slot)
  | .bind id kzalloc allocParm nodes =>
    let p := ptsserverStaticInsBinder id kzalloc allocParm nodes t
    (p.2.ret = 0 → ∃ r, p.2.pIns = some r ∧ ReturnedOk resolve p.1 id r) ∧
    (getIndexFromPtsserverId id t = none →
      freeSlot maxDynamicInstanceNum maxInstanceNum t = none →
        p.2.ret < 0 ∧ p.1.slot = t.slot)
  | .release _ => True

/-- There is an instance or a slot for the call, or no memory. -/
def SlotLeft (t : Table) : TableOp → Prop
  | .alloc kzalloc _ _ =>
    kzalloc = true → ∃ i, i.val < maxDynamicInstanceNum - 1 ∧ t.slot i = none
  | .bind id kzalloc _ _ =>
    kzalloc = true → (∃ i a, t.slot i = some a ∧ a.id = id) ∨
      ∃ i, maxDynamicInstanceNum ≤ i.val ∧ t.slot i = none
  | .release _ => True

/-- The slot that has a bound identifier or gets it. -/
def boundSlot (id : Int32) (kzalloc : Bool) (t : Table) : Option (Fin maxInstanceNum) :=
  match getIndexFromPtsserverId id t with
  | some i => some i
  | none => if kzalloc then freeSlot maxDynamicInstanceNum maxInstanceNum t else none

/-- A bound identifier is the number of its slot. -/
def BoundToNumber (t : Table) : TableOp → Prop
  | .bind id kzalloc _ _ => ∀ i, boundSlot id kzalloc t = some i → slotId i = id
  | _ => True

theorem slotOfId_eq {id : Int32} {t : Table} {i : Fin maxInstanceNum} :
    slotOfId id t = some i ↔ slotId i = id := by
  constructor
  · intro h
    simpa using List.find?_some h
  · intro h
    cases hfind : slotOfId id t with
    | none => exact absurd h (by simpa using List.find?_eq_none.mp hfind i (List.mem_finRange i))
    | some j =>
      have hj : slotId j = id := by simpa using List.find?_some hfind
      rw [slotId_inj (hj.trans h.symm)]

section

variable {resolve : Int32 → Table → Option (Fin maxInstanceNum)} {t : Table} {id : Int32}
  {i : Fin maxInstanceNum}

/-- A new instance is registered where it was put, and nowhere else. -/
theorem returnedOk_register (h : TableOk t) (ins : PtsServerIns) :
    ReturnedOk resolve (t.register i ins) id t.next ↔
      resolve id (t.register i ins) = some i := by
  have hself : ((t.register i ins).slot i).map Entry.ref = some t.next := by
    unfold Table.register
    rw [Table.set_slot]
    rfl
  have honly : ∀ j, ((t.register i ins).slot j).map Entry.ref = some t.next → j = i := by
    intro j hj
    obtain ⟨a, ha, hr⟩ := Option.map_eq_some_iff.mp hj
    rcases Table.register_some ha with ⟨hji, -⟩ | ⟨-, ha⟩
    · exact hji
    · exact absurd hr (Nat.ne_of_lt (h.fresh j a ha))
  constructor
  · rintro ⟨k, hk, hr, -⟩
    rw [hk, honly k hr]
  · exact fun hk => ⟨i, hk, hself, honly⟩

/-- An instance that was there stays registered in its one slot. -/
theorem returnedOk_rewrite (h : TableOk t) {e : Entry} (he : t.slot i = some e)
    (ins : PtsServerIns) :
    ReturnedOk resolve (t.set i (some { e with ins := ins })) id e.ref ↔
      resolve id (t.set i (some { e with ins := ins })) = some i := by
  have hself : ((t.set i (some { e with ins := ins })).slot i).map Entry.ref = some e.ref := by
    rw [Table.set_slot]
    rfl
  have honly : ∀ j, ((t.set i (some { e with ins := ins })).slot j).map Entry.ref = some e.ref →
      j = i := by
    intro j hj
    obtain ⟨a, ha, hr⟩ := Option.map_eq_some_iff.mp hj
    rcases Table.set_slot_some ha with ⟨hji, -⟩ | ⟨-, ha⟩
    · exact hji
    · exact h.distinct j i a e ha he hr
  constructor
  · rintro ⟨k, hk, hr, -⟩
    rw [hk, honly k hr]
  · exact fun hk => ⟨i, hk, hself, honly⟩

/-- An instance that found no slot is in none. -/
theorem not_returnedOk_next (h : TableOk t) :
    ¬ ReturnedOk resolve { t with next := t.next + 1 } id t.next := by
  rintro ⟨i, -, hr, -⟩
  obtain ⟨a, ha, hr⟩ := Option.map_eq_some_iff.mp hr
  exact absurd hr (Nat.ne_of_lt (h.fresh i a ha))

/-- A new instance is found under its identifier when no slot in front has that. -/
theorem getIndex_register (ins : PtsServerIns)
    (hlt : ∀ j < i, ∀ b, t.slot j = some b → b.id ≠ ins.mPtsServerInsId) :
    getIndexFromPtsserverId ins.mPtsServerInsId (t.register i ins) = some i := by
  apply getIndex_eq (a := ⟨t.next, ins⟩) (Table.set_slot ..) rfl
  intro j hj b hb
  rcases Table.register_some hb with ⟨hji, -⟩ | ⟨-, hb⟩
  · exact absurd hji (Fin.ne_of_lt hj)
  · exact hlt j hj b hb

/-- `ptsserver_ins_alloc` meets the claim on its result exactly when there is a slot. Its
number and its slot agree, so both kinds of later calls find the instance. -/
theorem alloc_callOk_iff (h : TableOk t) (kzalloc : Bool) (allocParm : Option AllocPara)
    (nodes : Option (NodeId → PtsNode))
    (hresolve : ∀ i t, getIndexFromPtsserverId (slotId i) t = some i →
      resolve (slotId i) t = some i) :
    CallOk resolve t (.alloc kzalloc allocParm nodes) ↔
      SlotLeft t (.alloc kzalloc allocParm nodes) := by
  unfold CallOk SlotLeft ptsserverInsAlloc
  cases kzalloc with
  | false => simp
  | true =>
    dsimp only
    cases hfree : freeSlot 0 (maxDynamicInstanceNum - 1) t with
    | none =>
      refine iff_of_false ?_ ?_
      · rintro ⟨hret, -⟩
        obtain ⟨id, r, hid, -⟩ := hret rfl
        exact nomatch hid
      · intro hleft
        obtain ⟨i, hi, hnone⟩ := hleft rfl
        exact freeSlot_none.mp hfree i (Nat.zero_le _) hi hnone
    | some i =>
      obtain ⟨-, hi, hnone⟩ := freeSlot_some hfree
      refine iff_of_true ⟨fun _ => ⟨slotId i, t.next, rfl, rfl, ?_⟩, fun hf => (nomatch hf)⟩
        fun _ => ⟨i, hi, hnone⟩
      apply (returnedOk_register h (newInstance (slotId i) allocParm nodes)).mpr
      apply hresolve
      have hnew := newInstance_id (slotId i) allocParm nodes
      have hget := getIndex_register (t := t) (i := i)
        (newInstance (slotId i) allocParm nodes) fun j hj b hb => by
          have hdyn : j.val < maxDynamicInstanceNum :=
            Nat.lt_trans hj (by omega)
          rw [h.dynamic j b hb hdyn, hnew]
          exact fun he => absurd (slotId_inj he) (Fin.ne_of_lt hj)
      rwa [hnew] at hget

section

variable {kzalloc : Bool} {allocParm : Option AllocPara} {nodes : Option (NodeId → PtsNode)}

theorem binder_found (hget : getIndexFromPtsserverId id t = some i) {e : Entry}
    (he : t.slot i = some e) :
    ptsserverStaticInsBinder id kzalloc allocParm nodes t =
      (t.set i (some { e with ins := { e.ins with mRef := e.ins.mRef + 1 } }),
        ⟨0, none, some e.ref⟩) := by
  unfold ptsserverStaticInsBinder
  rw [hget]
  dsimp only
  rw [he]

theorem binder_new (hget : getIndexFromPtsserverId id t = none)
    (hfree : freeSlot maxDynamicInstanceNum maxInstanceNum t = some i) :
    ptsserverStaticInsBinder id true allocParm nodes t =
      (t.register i (newInstance id allocParm nodes), ⟨0, none, some t.next⟩) := by
  unfold ptsserverStaticInsBinder
  rw [hget]
  simp only [hfree, if_true]
  rfl

/-- The binder has no slot for the new instance, and returns it all the same. -/
theorem binder_full (hget : getIndexFromPtsserverId id t = none)
    (hfree : freeSlot maxDynamicInstanceNum maxInstanceNum t = none) :
    ptsserverStaticInsBinder id true allocParm nodes t =
      ({ t with next := t.next + 1 }, ⟨0, none, some t.next⟩) := by
  unfold ptsserverStaticInsBinder
  rw [hget]
  simp only [hfree, if_true]

theorem binder_noMemory (hget : getIndexFromPtsserverId id t = none) :
    ptsserverStaticInsBinder id false allocParm nodes t = (t, ⟨-1, none, none⟩) := by
  unfold ptsserverStaticInsBinder
  rw [hget]
  simp only [Bool.false_eq_true, if_false]

/-- `ptsserver_static_ins_binder` meets the claim on its result exactly when there is an
instance or a slot, and later calls find the slot. -/
theorem bind_callOk_iff (h : TableOk t) :
    CallOk resolve t (.bind id kzalloc allocParm nodes) ↔
      SlotLeft t (.bind id kzalloc allocParm nodes) ∧
        ∀ i, boundSlot id kzalloc t = some i →
          resolve id (ptsserverStaticInsBinder id kzalloc allocParm nodes t).1 = some i := by
  unfold CallOk SlotLeft boundSlot
  dsimp only
  cases hget : getIndexFromPtsserverId id t with
  | some i =>
    obtain ⟨⟨e, he, hid⟩, -⟩ := getIndex_some hget
    rw [binder_found hget he]
    constructor
    · rintro ⟨hret, -⟩
      obtain ⟨r, hr, hok⟩ := hret rfl
      obtain rfl := Option.some.inj hr
      refine ⟨fun _ => .inl ⟨i, e, he, hid⟩, fun k hk => ?_⟩
      obtain rfl := Option.some.inj hk
      exact (returnedOk_rewrite h he _).mp hok
    · rintro ⟨-, hk⟩
      exact ⟨fun _ => ⟨e.ref, rfl, (returnedOk_rewrite h he _).mpr (hk i rfl)⟩,
        fun hf => (nomatch hf)⟩
  | none =>
    have habsent := getIndex_none.mp hget
    cases kzalloc with
    | false =>
      rw [binder_noMemory hget]
      simp
    | true =>
      cases hfree : freeSlot maxDynamicInstanceNum maxInstanceNum t with
      | none =>
        rw [binder_full hget hfree]
        refine iff_of_false ?_ ?_
        · rintro ⟨hret, -⟩
          obtain ⟨r, hr, hok⟩ := hret rfl
          obtain rfl := Option.some.inj hr
          exact not_returnedOk_next h hok
        · rintro ⟨hleft, -⟩
          rcases hleft rfl with ⟨i, a, ha, hid⟩ | ⟨i, hi, hnone⟩
          · exact habsent i a ha hid
          · exact freeSlot_none.mp hfree i hi i.isLt hnone
      | some i =>
        obtain ⟨hi, -, hnone⟩ := freeSlot_some hfree
        rw [binder_new hget hfree]
        constructor
        · rintro ⟨hret, -⟩
          obtain ⟨r, hr, hok⟩ := hret rfl
          obtain rfl := Option.some.inj hr
          refine ⟨fun _ => .inr ⟨i, hi, hnone⟩, fun k hk => ?_⟩
          obtain rfl := Option.some.inj hk
          exact (returnedOk_register h _).mp hok
        · rintro ⟨-, hk⟩
          exact ⟨fun _ => ⟨t.next, rfl, (returnedOk_register h _).mpr (hk i rfl)⟩,
            fun _ hf => (nomatch hf)⟩

/-- A bound identifier is looked up in its slot. -/
theorem getIndex_bound (hb : boundSlot id kzalloc t = some i) :
    getIndexFromPtsserverId id (ptsserverStaticInsBinder id kzalloc allocParm nodes t).1 =
      some i := by
  unfold boundSlot at hb
  cases hget : getIndexFromPtsserverId id t with
  | some k =>
    rw [hget] at hb
    obtain rfl := Option.some.inj hb
    obtain ⟨⟨e, he, hid⟩, hlt⟩ := getIndex_some hget
    rw [binder_found hget he]
    refine getIndex_eq (Table.set_slot ..) hid fun j hj b hb => ?_
    rw [Table.set_slot_ne t _ (Fin.ne_of_lt hj)] at hb
    exact hlt j hj b hb
  | none =>
    rw [hget] at hb
    cases kzalloc with
    | false => exact nomatch hb
    | true =>
      have hnew := newInstance_id id allocParm nodes
      have hreg := getIndex_register (t := t) (i := i) (newInstance id allocParm nodes)
        fun j _ b hb => by
          rw [hnew]
          exact getIndex_none.mp hget j b hb
      rw [hnew] at hreg
      rw [binder_new hget hb]
      exact hreg

end

end

/-- Calls that look the identifier up find what was returned exactly when the call found an
instance, a slot or no memory. -/
theorem getIndex_callOk_iff {t : Table} (h : TableOk t) (op : TableOp) :
    CallOk getIndexFromPtsserverId t op ↔ SlotLeft t op := by
  cases op with
  | alloc kzalloc allocParm nodes =>
    exact alloc_callOk_iff h kzalloc allocParm nodes fun _ _ hi => hi
  | bind id kzalloc allocParm nodes =>
    rw [bind_callOk_iff h]
    exact and_iff_left fun i hi => getIndex_bound hi
  | release id => exact Iff.rfl

/-- Calls that take the identifier as a slot number find a bound instance only in the slot of
that number. -/
theorem slotOfId_callOk_iff {t : Table} (h : TableOk t) (op : TableOp) :
    CallOk slotOfId t op ↔ SlotLeft t op ∧ BoundToNumber t op := by
  cases op with
  | alloc kzalloc allocParm nodes =>
    rw [alloc_callOk_iff h kzalloc allocParm nodes fun _ _ _ => slotOfId_eq.mpr rfl]
    exact (and_iff_left trivial).symm
  | bind id kzalloc allocParm nodes =>
    rw [bind_callOk_iff h]
    simp only [slotOfId_eq, BoundToNumber]
  | release id => exact (and_iff_left trivial).symm

end MediaModules.PtsServer
