import Mathlib.Data.Finset.Card
import Mathlib.Data.Fintype.Basic
import MediaModules.Lib.Run
import MediaModules.MediaSync.Types

/-!
# The table of media-sync instances

An allocation takes one of the first ten slots and gives its number to the instance. A static bind
looks an identifier of the caller's choice up and, when there is no instance, puts a new one into
one of the other slots. Every bind counts a reference, and the last unbind frees the instance.
-/
namespace MediaModules.MediaSync

open Lib.Run

/-- `MAX_DYNAMIC_INSTANCE_NUM`. -/
abbrev maxDynamicInstanceNum : Nat := 10

/-- `MAX_INSTANCE_NUM`. -/
abbrev maxInstanceNum : Nat := 40

/-- A manager is its slot. -/
abbrev Manager := Fin maxInstanceNum

/-- The fields of `mediasync_ins` that the table is kept with. -/
structure MediasyncIns where
  mSyncIndex : Nat
  mSyncId : Int
  mUId : Int
  mDemuxId : Int
  mPcrPid : Int
  mRef : Int
deriving DecidableEq, Repr

/-- `vMediaSyncInsList` and `g_inst_uid`. `allocated` counts the instances that were allocated and
not freed. -/
structure SyncTable where
  slot : Manager → Option MediasyncIns
  gInstUid : Int
  allocated : Nat

namespace SyncTable

variable (t : SyncTable)

/-- `get_media_sync_manager`. -/
def getMediaSyncManager (sSyncInsId : Int) : Option Manager :=
  if sSyncInsId ≥ 0 then
    (List.finRange maxInstanceNum).find? fun k => (t.slot k).any fun a => a.mSyncId = sSyncInsId
  else none

/-- The first free slot from `lo` up to `hi`. -/
def freeSlot (lo hi : Nat) : Option Manager :=
  (List.finRange maxInstanceNum).find? fun k => lo ≤ k.val ∧ k.val < hi ∧ (t.slot k).isNone

def set (k : Manager) (a : Option MediasyncIns) : SyncTable :=
  { t with slot := Function.update t.slot k a }

/-- A new instance in a slot, with one reference. -/
def put (k : Manager) (sSyncInsId sDemuxId sPcrPid : Int) : SyncTable :=
  { t.set k (some ⟨k.val, sSyncInsId, t.gInstUid, sDemuxId, sPcrPid, 1⟩) with
    gInstUid := u32 (t.gInstUid + 1)
    allocated := t.allocated + 1 }

/-- `mRef++`. -/
def addRef (k : Manager) (a : MediasyncIns) : SyncTable :=
  t.set k (some { a with mRef := s32 (a.mRef + 1) })

/-- `mediasync_ins_alloc`; `none` is -1. The instance is allocated before a slot is looked for, and
freed again when there is none. -/
def mediasyncInsAlloc (kmalloc : Bool) (sDemuxId sPcrPid : Int) : SyncTable × Option Manager :=
  if kmalloc = false then (t, none)
  else
    match t.freeSlot 0 maxDynamicInstanceNum with
    | none => (t, none)
    | some k => (t.put k k.val sDemuxId sPcrPid, some k)

/-- `mediasync_ins_binder`. -/
def mediasyncInsBinder (sSyncInsId : Int) : SyncTable × Option Manager :=
  match t.getMediaSyncManager sSyncInsId with
  | none => (t, none)
  | some k =>
    match t.slot k with
    | none => (t, none)
    | some a => (t.addRef k a, some k)

/-- `mediasync_static_ins_binder`. A new instance that finds no slot is kept nowhere. -/
def mediasyncStaticInsBinder (sSyncInsId : Int) (kzalloc : Bool) : SyncTable × Option Manager :=
  let (t, bound) :=
    if sSyncInsId < maxDynamicInstanceNum ∧ sSyncInsId ≥ 0 then t.mediasyncInsBinder sSyncInsId
    else (t, none)
  match bound with
  | some k => (t, some k)
  | none =>
    match t.getMediaSyncManager sSyncInsId with
    | none =>
      if kzalloc = false then (t, none)
      else
        match t.freeSlot maxDynamicInstanceNum maxInstanceNum with
        | none => ({ t with allocated := t.allocated + 1 }, none)
        | some k => (t.put k sSyncInsId (-1) (-1), some k)
    | some k =>
      match t.slot k with
      | none => (t, none)
      | some a => (t.addRef k a, some k)

/-- `mediasync_ins_unbinder`; `false` is -1. -/
def mediasyncInsUnbinder (pSyncManage : Option Manager) : SyncTable × Bool :=
  match pSyncManage with
  | none => (t, false)
  | some k =>
    match t.slot k with
    | none => (t, false)
    | some a =>
      let ref := s32 (a.mRef - 1)
      if ref ≤ 0 then ({ t.set k none with allocated := t.allocated - 1 }, true)
      else (t.set k (some { a with mRef := ref }), true)

end SyncTable

/-- `mediasync_init`. -/
def mediasyncInit : SyncTable := ⟨fun _ => none, 1, 0⟩

/-! ## Runs -/

/-- The calls; `kmalloc` and `kzalloc` tell whether the allocation succeeds. -/
inductive SyncOp
  | alloc (kmalloc : Bool) (sDemuxId sPcrPid : Int)
  | bind (sSyncInsId : Int)
  | staticBind (sSyncInsId : Int) (kzalloc : Bool)
  | unbind (pSyncManage : Option Manager)

/-- What a call that returned 0 handed out: a manager for an identifier, or nothing. -/
inductive SyncResult
  | failed
  | bound (id : Int) (k : Manager)
  | unbound (k : Manager)

def SyncResult.ofBound (id : Int) : Option Manager → SyncResult
  | none => .failed
  | some k => .bound id k

/-- The table after a call and what it returned. -/
def syncCall (t : SyncTable) : SyncOp → SyncTable × SyncResult
  | .alloc kmalloc sDemuxId sPcrPid =>
    let (t, m) := t.mediasyncInsAlloc kmalloc sDemuxId sPcrPid
    (t, match m with
      | none => .failed
      | some k => .bound k.val k)
  | .bind id =>
    let (t, m) := t.mediasyncInsBinder id
    (t, .ofBound id m)
  | .staticBind id kzalloc =>
    let (t, m) := t.mediasyncStaticInsBinder id kzalloc
    (t, .ofBound id m)
  | .unbind pSyncManage =>
    let (t, done) := t.mediasyncInsUnbinder pSyncManage
    (t, match pSyncManage, done with
      | some k, true => .unbound k
      | _, _ => .failed)

/-- The successful allocations and binds of a manager, minus its unbinds. -/
def countUse (uses : Manager → Int) : SyncResult → Manager → Int
  | .failed => uses
  | .bound _ k => Function.update uses k (uses k + 1)
  | .unbound k => Function.update uses k (uses k - 1)

structure SyncRun where
  table : SyncTable
  uses : Manager → Int

def syncStep (s : SyncRun) (op : SyncOp) : Option SyncRun :=
  let (t, r) := syncCall s.table op
  some ⟨t, countUse s.uses r⟩

def syncInit : SyncRun := ⟨mediasyncInit, fun _ => 0⟩

/-! ## What is claimed of a call -/

/-- The slots with an instance. -/
def SyncTable.occupied (t : SyncTable) : Finset Manager :=
  Finset.univ.filter fun k => (t.slot k).isSome

/-- Identifiers are unique, an instance is there exactly while its uses are more than zero, and
counts them, and no instance is allocated outside the table. -/
structure TableOk (s : SyncRun) : Prop where
  unique : ∀ j k a b, s.table.slot j = some a → s.table.slot k = some b →
    a.mSyncId = b.mSyncId → j = k
  freed : ∀ k, s.table.slot k = none ↔ s.uses k = 0
  nonneg : ∀ k, 0 ≤ s.uses k
  counted : ∀ k a, s.table.slot k = some a → a.mRef = s.uses k
  kept : s.table.allocated = s.table.occupied.card

/-- What a call returned is right. -/
def ResultOk (s : SyncRun) (op : SyncOp) : Prop :=
  match (syncCall s.table op).2 with
  | .failed => (syncCall s.table op).1 = s.table
  | .bound id k => (syncCall s.table op).1.getMediaSyncManager id = some k
  | .unbound _ => True

/-- The call keeps the table in order and returns what is right. -/
def CallKeeps (s : SyncRun) (op : SyncOp) : Prop :=
  ResultOk s op ∧ ∀ s', syncStep s op = some s' → TableOk s'

/-- An allocation takes a number that no instance carries; a static bind for an identifier that no
instance carries has one of its own kind and a free slot; and no reference count is at its end. -/
def CallFits (s : SyncRun) : SyncOp → Prop
  | .alloc kmalloc _ _ => kmalloc = true → ∀ k : Manager,
      s.table.freeSlot 0 maxDynamicInstanceNum = some k →
        ∀ j a, s.table.slot j = some a → a.mSyncId ≠ k.val
  | .bind id => ∀ k a, s.table.getMediaSyncManager id = some k → s.table.slot k = some a →
      a.mRef < 2147483647
  | .staticBind id kzalloc =>
      (∀ k a, s.table.getMediaSyncManager id = some k → s.table.slot k = some a →
        a.mRef < 2147483647) ∧
      (s.table.getMediaSyncManager id = none → kzalloc = true →
        id ≥ 0 ∧ s.table.freeSlot maxDynamicInstanceNum maxInstanceNum ≠ none)
  | .unbind _ => True

/-! ## Slots -/

section

variable {t : SyncTable} {j k : Manager} {a b : MediasyncIns} {id : Int} {lo hi : Nat}

theorem manager_some (h : t.getMediaSyncManager id = some k) :
    0 ≤ id ∧ ∃ a, t.slot k = some a ∧ a.mSyncId = id := by
  unfold SyncTable.getMediaSyncManager at h
  split at h
  · rename_i hid
    have hany := List.find?_some h
    rw [Option.any_eq_true] at hany
    obtain ⟨a, ha, heq⟩ := hany
    exact ⟨hid, a, ha, of_decide_eq_true heq⟩
  · exact nomatch h

theorem manager_none (hid : 0 ≤ id) (h : t.getMediaSyncManager id = none)
    (ha : t.slot k = some a) : a.mSyncId ≠ id := by
  unfold SyncTable.getMediaSyncManager at h
  rw [if_pos hid, List.find?_eq_none] at h
  intro heq
  apply h k (List.mem_finRange k)
  rw [ha]
  exact decide_eq_true heq

/-- With unique identifiers, the one of an instance leads to its manager. -/
theorem manager_unique (hu : ∀ j k a b, t.slot j = some a → t.slot k = some b →
      a.mSyncId = b.mSyncId → j = k) (ha : t.slot k = some a) (hid : 0 ≤ a.mSyncId) :
    t.getMediaSyncManager a.mSyncId = some k := by
  cases h : t.getMediaSyncManager a.mSyncId with
  | none => exact absurd rfl (manager_none hid h ha)
  | some j =>
    obtain ⟨-, b, hb, heq⟩ := manager_some h
    rw [hu j k b a hb ha heq]

theorem freeSlot_some (h : t.freeSlot lo hi = some k) : t.slot k = none := by
  have hk := List.find?_some h
  exact Option.isNone_iff_eq_none.mp (of_decide_eq_true hk).2.2

@[simp] theorem set_self (a : Option MediasyncIns) : (t.set k a).slot k = a := by
  unfold SyncTable.set
  exact Function.update_self k a t.slot

theorem set_of_ne (hjk : j ≠ k) (a : Option MediasyncIns) : (t.set k a).slot j = t.slot j := by
  unfold SyncTable.set
  exact Function.update_of_ne hjk a t.slot

theorem set_slot {a : Option MediasyncIns} (hj : (t.set k a).slot j = some b) :
    (j = k ∧ a = some b) ∨ (j ≠ k ∧ t.slot j = some b) := by
  by_cases hjk : j = k
  · rw [hjk, set_self] at hj
    exact .inl ⟨hjk, hj⟩
  · rw [set_of_ne hjk] at hj
    exact .inr ⟨hjk, hj⟩

/-- Another instance with the same identifier is found in the same place. -/
theorem manager_set (ha : t.slot k = some a) (hid : b.mSyncId = a.mSyncId) :
    (t.set k (some b)).getMediaSyncManager id = t.getMediaSyncManager id := by
  have hsame : (fun j => ((t.set k (some b)).slot j).any fun a => a.mSyncId = id) =
      fun j => (t.slot j).any fun a => a.mSyncId = id := by
    funext j
    by_cases hjk : j = k
    · rw [hjk, ha, set_self]
      simp only [Option.any_some, hid]
    · rw [set_of_ne hjk]
  unfold SyncTable.getMediaSyncManager
  rw [hsame]

theorem occupied_fill (hk : t.slot k = none) (a : MediasyncIns) :
    (t.set k (some a)).occupied = insert k t.occupied ∧ k ∉ t.occupied := by
  refine ⟨?_, ?_⟩
  · ext j
    simp only [SyncTable.occupied, Finset.mem_filter, Finset.mem_univ, true_and, Finset.mem_insert]
    by_cases hjk : j = k
    · rw [hjk, set_self]
      exact iff_of_true rfl (.inl rfl)
    · rw [set_of_ne hjk]
      exact ⟨.inr, fun h => h.resolve_left hjk⟩
  · simp only [SyncTable.occupied, Finset.mem_filter, Finset.mem_univ, true_and, hk]
    exact Bool.false_ne_true

theorem occupied_clear (ha : t.slot k = some a) :
    (t.set k none).occupied = t.occupied.erase k ∧ k ∈ t.occupied := by
  refine ⟨?_, ?_⟩
  · ext j
    simp only [SyncTable.occupied, Finset.mem_filter, Finset.mem_univ, true_and, Finset.mem_erase]
    by_cases hjk : j = k
    · rw [hjk, set_self]
      exact iff_of_false Bool.false_ne_true fun h => h.1 rfl
    · rw [set_of_ne hjk]
      exact ⟨fun h => ⟨hjk, h⟩, And.right⟩
  · simp only [SyncTable.occupied, Finset.mem_filter, Finset.mem_univ, true_and, ha]
    exact rfl

theorem occupied_rewrite (ha : t.slot k = some a) (b : MediasyncIns) :
    (t.set k (some b)).occupied = t.occupied := by
  ext j
  simp only [SyncTable.occupied, Finset.mem_filter, Finset.mem_univ, true_and]
  by_cases hjk : j = k
  · rw [hjk, ha, set_self]
    exact Iff.rfl
  · rw [set_of_ne hjk]

end

/-! ## Effects of the calls -/

section

variable {s : SyncRun} {k : Manager} {a : MediasyncIns} {id : Int}

theorem put_ok_iff (h : TableOk s) (hk : s.table.slot k = none) (sDemuxId sPcrPid : Int) :
    ((s.table.put k id sDemuxId sPcrPid).getMediaSyncManager id = some k ∧
      TableOk ⟨s.table.put k id sDemuxId sPcrPid, countUse s.uses (.bound id k)⟩) ↔
      0 ≤ id ∧ ∀ j a, s.table.slot j = some a → a.mSyncId ≠ id := by
  obtain ⟨a, ha⟩ : ∃ a : MediasyncIns, a = ⟨k.val, id, s.table.gInstUid, sDemuxId, sPcrPid, 1⟩ :=
    ⟨_, rfl⟩
  have hput (j : Manager) : (s.table.put k id sDemuxId sPcrPid).slot j =
      (s.table.set k (some a)).slot j := by
    rw [ha]
    rfl
  have haid : a.mSyncId = id := congrArg MediasyncIns.mSyncId ha
  have hself : (s.table.put k id sDemuxId sPcrPid).slot k = some a := by rw [hput, set_self]
  have hother {j : Manager} (hj : j ≠ k) :
      (s.table.put k id sDemuxId sPcrPid).slot j = s.table.slot j := by rw [hput, set_of_ne hj]
  have hzero : s.uses k = 0 := (h.freed k).mp hk
  constructor
  · rintro ⟨hm, hok⟩
    refine ⟨(manager_some hm).1, fun j b hb heq => ?_⟩
    have hjk : j ≠ k := by
      rintro rfl
      exact nomatch hk.symm.trans hb
    exact hjk (hok.unique j k b a ((hother hjk).trans hb) hself (heq.trans haid.symm))
  · rintro ⟨hid, hnew⟩
    have hu : ∀ i j b c, (s.table.put k id sDemuxId sPcrPid).slot i = some b →
        (s.table.put k id sDemuxId sPcrPid).slot j = some c → b.mSyncId = c.mSyncId → i = j := by
      intro i j b c hb hc heq
      rw [hput] at hb hc
      rcases set_slot hb with ⟨hi, hb'⟩ | ⟨-, hb'⟩ <;>
        rcases set_slot hc with ⟨hj, hc'⟩ | ⟨-, hc'⟩
      · exact hi.trans hj.symm
      · obtain rfl := Option.some.inj hb'
        exact absurd (heq.symm.trans haid) (hnew j c hc')
      · obtain rfl := Option.some.inj hc'
        exact absurd (heq.trans haid) (hnew i b hb')
      · exact h.unique i j b c hb' hc' heq
    have hm := manager_unique hu hself (haid ▸ hid)
    rw [haid] at hm
    refine ⟨hm, hu, fun j => ?_, fun j => ?_, fun j b hb => ?_, ?_⟩
    · show _ ↔ Function.update s.uses k (s.uses k + 1) j = 0
      by_cases hj : j = k
      · rw [hj, hself, Function.update_self]
        exact iff_of_false (fun hc => nomatch hc) (by omega)
      · rw [show SyncRun.table ⟨s.table.put k id sDemuxId sPcrPid, _⟩ =
          s.table.put k id sDemuxId sPcrPid from rfl, hother hj, Function.update_of_ne hj]
        exact h.freed j
    · show 0 ≤ Function.update s.uses k (s.uses k + 1) j
      by_cases hj : j = k
      · rw [hj, Function.update_self]
        omega
      · rw [Function.update_of_ne hj]
        exact h.nonneg j
    · show b.mRef = Function.update s.uses k (s.uses k + 1) j
      rw [show SyncRun.table ⟨s.table.put k id sDemuxId sPcrPid, _⟩ =
          s.table.put k id sDemuxId sPcrPid from rfl, hput] at hb
      rcases set_slot hb with ⟨hj, hb'⟩ | ⟨hj, hb'⟩
      · rw [hj, Function.update_self, ← Option.some.inj hb', ha]
        show (1 : Int) = _
        omega
      · rw [Function.update_of_ne hj]
        exact h.counted j b hb'
    · have hfill := occupied_fill hk a
      have hsame : (s.table.put k id sDemuxId sPcrPid).occupied =
          (s.table.set k (some a)).occupied := by
        unfold SyncTable.occupied
        rw [funext hput]
      show s.table.allocated + 1 = (s.table.put k id sDemuxId sPcrPid).occupied.card
      rw [hsame, hfill.1, Finset.card_insert_of_notMem hfill.2, h.kept]

theorem TableOk.positive (h : TableOk s) (ha : s.table.slot k = some a) : 0 < s.uses k := by
  apply lt_of_le_of_ne (h.nonneg k)
  intro hzero
  exact nomatch ((h.freed k).mpr hzero.symm).symm.trans ha

/-- An instance is written with the number of its uses, more than zero. -/
theorem TableOk.rewrite (h : TableOk s) (ha : s.table.slot k = some a) {b : MediasyncIns} {n : Int}
    (hid : b.mSyncId = a.mSyncId) (hn : 0 < n) (hb : b.mRef = n) :
    TableOk ⟨s.table.set k (some b), Function.update s.uses k n⟩ := by
  have hold {j : Manager} {c : MediasyncIns} (hc : (s.table.set k (some b)).slot j = some c) :
      ∃ c', s.table.slot j = some c' ∧ c'.mSyncId = c.mSyncId := by
    rcases set_slot hc with ⟨rfl, hc'⟩ | ⟨-, hc'⟩
    · exact ⟨a, ha, (congrArg MediasyncIns.mSyncId (Option.some.inj hc') ▸ hid).symm⟩
    · exact ⟨c, hc', rfl⟩
  refine ⟨fun i j c d hc hd heq => ?_, fun j => ?_, fun j => ?_, fun j c hc => ?_, ?_⟩
  · obtain ⟨c', hc', hcid⟩ := hold hc
    obtain ⟨d', hd', hdid⟩ := hold hd
    exact h.unique i j c' d' hc' hd' (hcid.trans (heq.trans hdid.symm))
  · show (s.table.set k (some b)).slot j = none ↔ Function.update s.uses k n j = 0
    by_cases hj : j = k
    · rw [hj, set_self, Function.update_self]
      exact iff_of_false (fun hc => nomatch hc) (by omega)
    · rw [set_of_ne hj, Function.update_of_ne hj]
      exact h.freed j
  · show 0 ≤ Function.update s.uses k n j
    by_cases hj : j = k
    · rw [hj, Function.update_self]
      omega
    · rw [Function.update_of_ne hj]
      exact h.nonneg j
  · show c.mRef = Function.update s.uses k n j
    rcases set_slot hc with ⟨hj, hc'⟩ | ⟨hj, hc'⟩
    · rw [hj, Function.update_self, ← Option.some.inj hc', hb]
    · rw [Function.update_of_ne hj]
      exact h.counted j c hc'
  · show s.table.allocated = (s.table.set k (some b)).occupied.card
    rw [occupied_rewrite ha b]
    exact h.kept

/-- An instance gets one more reference. -/
theorem addRef_ok_iff (h : TableOk s) (ha : s.table.slot k = some a)
    (hm : s.table.getMediaSyncManager id = some k) :
    ((s.table.addRef k a).getMediaSyncManager id = some k ∧
      TableOk ⟨s.table.addRef k a, countUse s.uses (.bound id k)⟩) ↔ a.mRef < 2147483647 := by
  obtain ⟨b, hb⟩ : ∃ b : MediasyncIns, b = { a with mRef := s32 (a.mRef + 1) } := ⟨_, rfl⟩
  have hbid : b.mSyncId = a.mSyncId := by rw [hb]
  have hbref : b.mRef = s32 (a.mRef + 1) := by rw [hb]
  have hcount := h.counted k a ha
  have hpos := h.positive ha
  rw [show s.table.addRef k a = s.table.set k (some b) by rw [hb]; rfl]
  constructor
  · rintro ⟨-, hok⟩
    have hmore : b.mRef = Function.update s.uses k (s.uses k + 1) k :=
      hok.counted k b (set_self (some b))
    rw [Function.update_self, ← hcount, hbref] at hmore
    unfold s32 at hmore
    omega
  · intro hlt
    have hs32 : s32 (a.mRef + 1) = a.mRef + 1 := by
      unfold s32
      omega
    exact ⟨(manager_set ha hbid).trans hm, h.rewrite ha hbid (by omega) (by rw [hbref, hs32, hcount])⟩

/-- The last use is gone and the instance is freed. -/
theorem TableOk.clear (h : TableOk s) (ha : s.table.slot k = some a) :
    TableOk ⟨{ s.table.set k none with allocated := s.table.allocated - 1 },
      Function.update s.uses k 0⟩ := by
  refine ⟨fun i j c d hc hd heq => ?_, fun j => ?_, fun j => ?_, fun j c hc => ?_, ?_⟩
  · rcases set_slot hc with ⟨-, hc'⟩ | ⟨-, hc'⟩
    · exact nomatch hc'
    · rcases set_slot hd with ⟨-, hd'⟩ | ⟨-, hd'⟩
      · exact nomatch hd'
      · exact h.unique i j c d hc' hd' heq
  · show (s.table.set k none).slot j = none ↔ Function.update s.uses k 0 j = 0
    by_cases hj : j = k
    · rw [hj, set_self, Function.update_self]
      exact iff_of_true rfl rfl
    · rw [set_of_ne hj, Function.update_of_ne hj]
      exact h.freed j
  · show 0 ≤ Function.update s.uses k 0 j
    by_cases hj : j = k
    · rw [hj, Function.update_self]
    · rw [Function.update_of_ne hj]
      exact h.nonneg j
  · show c.mRef = Function.update s.uses k 0 j
    rcases set_slot hc with ⟨-, hc'⟩ | ⟨hj, hc'⟩
    · exact nomatch hc'
    · rw [Function.update_of_ne hj]
      exact h.counted j c hc'
  · have hclear := occupied_clear ha
    show s.table.allocated - 1 = (s.table.set k none).occupied.card
    rw [hclear.1, Finset.card_erase_of_mem hclear.2, h.kept]

/-- One reference less, and none left when it was the last. -/
theorem unref_ok (h : TableOk s) (ha : s.table.slot k = some a) (hrange : a.mRef ≤ 2147483647) :
    ∃ t, s.table.mediasyncInsUnbinder (some k) = (t, true) ∧
      TableOk ⟨t, countUse s.uses (.unbound k)⟩ := by
  have hcount := h.counted k a ha
  have hpos := h.positive ha
  have hs32 : s32 (a.mRef - 1) = a.mRef - 1 := by
    unfold s32
    omega
  unfold SyncTable.mediasyncInsUnbinder
  simp only [ha, hs32]
  by_cases hlast : a.mRef - 1 ≤ 0
  · have hzero : s.uses k - 1 = 0 := by omega
    rw [if_pos hlast]
    refine ⟨_, rfl, ?_⟩
    show TableOk ⟨_, Function.update s.uses k (s.uses k - 1)⟩
    rw [hzero]
    exact h.clear ha
  · rw [if_neg hlast]
    exact ⟨_, rfl, h.rewrite ha rfl (by omega) (by show a.mRef - 1 = _; omega)⟩

/-- The reference counts are `s32` values. -/
def InRange (t : SyncTable) : Prop := ∀ k a, t.slot k = some a → a.mRef ≤ 2147483647

end

/-! ## Calls -/

section

variable {s : SyncRun} {k : Manager} {a : MediasyncIns} {id : Int} {op : SyncOp}

theorem callKeeps_failed (h : TableOk s) {t : SyncTable} (hc : syncCall s.table op = (t, .failed)) :
    CallKeeps s op ↔ t = s.table := by
  unfold CallKeeps ResultOk syncStep
  rw [hc]
  constructor
  · exact And.left
  · rintro rfl
    refine ⟨rfl, fun s' hs => ?_⟩
    obtain rfl := Option.some.inj hs
    exact h

theorem callKeeps_bound {t : SyncTable} (hc : syncCall s.table op = (t, .bound id k)) :
    CallKeeps s op ↔
      t.getMediaSyncManager id = some k ∧ TableOk ⟨t, countUse s.uses (.bound id k)⟩ := by
  unfold CallKeeps ResultOk syncStep
  rw [hc]
  simp only [Option.some.injEq, forall_eq']

/-- A bind finds the instance with the identifier, or changes nothing. -/
theorem binder_cases (t : SyncTable) (id : Int) :
    (t.getMediaSyncManager id = none ∧ t.mediasyncInsBinder id = (t, none)) ∨
    ∃ k a, t.getMediaSyncManager id = some k ∧ t.slot k = some a ∧
      t.mediasyncInsBinder id = (t.addRef k a, some k) := by
  unfold SyncTable.mediasyncInsBinder
  cases hm : t.getMediaSyncManager id with
  | none => exact .inl ⟨rfl, rfl⟩
  | some k =>
    obtain ⟨-, a, ha, -⟩ := manager_some hm
    refine .inr ⟨k, a, rfl, ha, ?_⟩
    simp only [ha]

/-- A static bind does the same, but for an identifier without an instance it makes one. -/
theorem staticBinder_cases (t : SyncTable) (id : Int) (kzalloc : Bool) :
    (t.getMediaSyncManager id = none ∧ t.mediasyncStaticInsBinder id kzalloc =
      if kzalloc = false then (t, none)
      else
        match t.freeSlot maxDynamicInstanceNum maxInstanceNum with
        | none => ({ t with allocated := t.allocated + 1 }, none)
        | some k => (t.put k id (-1) (-1), some k)) ∨
    ∃ k a, t.getMediaSyncManager id = some k ∧ t.slot k = some a ∧
      t.mediasyncStaticInsBinder id kzalloc = (t.addRef k a, some k) := by
  unfold SyncTable.mediasyncStaticInsBinder
  rcases binder_cases t id with ⟨hm, hb⟩ | ⟨k, a, hm, ha, hb⟩
  · refine .inl ⟨hm, ?_⟩
    simp only [hb, ite_self, hm]
  · refine .inr ⟨k, a, hm, ha, ?_⟩
    by_cases hid : id < maxDynamicInstanceNum ∧ id ≥ 0
    · simp only [if_pos hid, hb]
    · simp only [if_neg hid, hm, ha]

/-- A bind keeps the table in order iff the reference count is not at its end. -/
theorem bound_keeps_iff (h : TableOk s) (hm : s.table.getMediaSyncManager id = some k)
    (ha : s.table.slot k = some a)
    (hc : syncCall s.table op = (s.table.addRef k a, .bound id k)) :
    CallKeeps s op ↔ ∀ k' a', s.table.getMediaSyncManager id = some k' →
      s.table.slot k' = some a' → a'.mRef < 2147483647 := by
  rw [callKeeps_bound hc, addRef_ok_iff h ha hm]
  constructor
  · intro hlt k' a' hm' ha'
    obtain rfl := Option.some.inj (hm.symm.trans hm')
    obtain rfl := Option.some.inj (ha.symm.trans ha')
    exact hlt
  · exact fun hlt => hlt k a hm ha

theorem alloc_keeps_iff (h : TableOk s) (kmalloc : Bool) (sDemuxId sPcrPid : Int) :
    CallFits s (.alloc kmalloc sDemuxId sPcrPid) ↔
      CallKeeps s (.alloc kmalloc sDemuxId sPcrPid) := by
  cases kmalloc with
  | false =>
    refine iff_of_true (fun hc => nomatch hc) ((callKeeps_failed h ?_).mpr rfl)
    rfl
  | true =>
    cases hfree : s.table.freeSlot 0 maxDynamicInstanceNum with
    | none =>
      have hc : syncCall s.table (.alloc true sDemuxId sPcrPid) = (s.table, .failed) := by
        unfold syncCall SyncTable.mediasyncInsAlloc
        simp only [hfree, Bool.true_eq_false, if_false]
      apply iff_of_true (fun _ k hk => nomatch hfree.symm.trans hk)
      exact (callKeeps_failed h hc).mpr rfl
    | some k =>
      have hc : syncCall s.table (.alloc true sDemuxId sPcrPid) =
          (s.table.put k k.val sDemuxId sPcrPid, .bound k.val k) := by
        unfold syncCall SyncTable.mediasyncInsAlloc
        simp only [hfree, Bool.true_eq_false, if_false]
      rw [callKeeps_bound hc, put_ok_iff h (freeSlot_some hfree)]
      constructor
      · exact fun hfits => ⟨Int.natCast_nonneg _, hfits rfl k hfree⟩
      · rintro ⟨-, hnew⟩ - k' hk'
        obtain rfl := Option.some.inj (hfree.symm.trans hk')
        exact hnew

theorem bind_keeps_iff (h : TableOk s) (id : Int) :
    CallFits s (.bind id) ↔ CallKeeps s (.bind id) := by
  rcases binder_cases s.table id with ⟨hm, hb⟩ | ⟨k, a, hm, ha, hb⟩
  · have hc : syncCall s.table (.bind id) = (s.table, .failed) := by
      simp only [syncCall, hb, SyncResult.ofBound]
    refine iff_of_true (fun k a hk => nomatch hm.symm.trans hk) ((callKeeps_failed h hc).mpr rfl)
  · have hc : syncCall s.table (.bind id) = (s.table.addRef k a, .bound id k) := by
      simp only [syncCall, hb, SyncResult.ofBound]
    exact (bound_keeps_iff h hm ha hc).symm

theorem staticBind_keeps_iff (h : TableOk s) (id : Int) (kzalloc : Bool) :
    CallFits s (.staticBind id kzalloc) ↔ CallKeeps s (.staticBind id kzalloc) := by
  rcases staticBinder_cases s.table id kzalloc with ⟨hm, hb⟩ | ⟨k, a, hm, ha, hb⟩
  · have hbound : ∀ k a, s.table.getMediaSyncManager id = some k → s.table.slot k = some a →
        a.mRef < 2147483647 := fun k a hk => nomatch hm.symm.trans hk
    cases kzalloc with
    | false =>
      have hc : syncCall s.table (.staticBind id false) = (s.table, .failed) := by
        simp only [syncCall, hb, if_true, SyncResult.ofBound]
      exact iff_of_true ⟨hbound, fun _ hc => nomatch hc⟩ ((callKeeps_failed h hc).mpr rfl)
    | true =>
      cases hfree : s.table.freeSlot maxDynamicInstanceNum maxInstanceNum with
      | none =>
        have hc : syncCall s.table (.staticBind id true) =
            ({ s.table with allocated := s.table.allocated + 1 }, .failed) := by
          simp only [syncCall, hb, hfree, Bool.true_eq_false, if_false, SyncResult.ofBound]
        apply iff_of_false (fun hfits => (hfits.2 hm rfl).2 hfree)
        rw [callKeeps_failed h hc]
        exact fun heq => Nat.succ_ne_self _ (congrArg SyncTable.allocated heq)
      | some k =>
        have hc : syncCall s.table (.staticBind id true) =
            (s.table.put k id (-1) (-1), .bound id k) := by
          simp only [syncCall, hb, hfree, Bool.true_eq_false, if_false, SyncResult.ofBound]
        rw [callKeeps_bound hc, put_ok_iff h (freeSlot_some hfree)]
        constructor
        · intro hfits
          have hid := (hfits.2 hm rfl).1
          exact ⟨hid, fun j a ha => manager_none hid hm ha⟩
        · rintro ⟨hid, -⟩
          exact ⟨hbound, fun _ _ => ⟨hid, fun hc => nomatch hfree.symm.trans hc⟩⟩
  · have hc : syncCall s.table (.staticBind id kzalloc) = (s.table.addRef k a, .bound id k) := by
      simp only [syncCall, hb, SyncResult.ofBound]
    rw [bound_keeps_iff h hm ha hc]
    constructor
    · exact And.left
    · exact fun hlt => ⟨hlt, fun hn => nomatch hn.symm.trans hm⟩

theorem unbind_keeps (h : TableOk s) (hr : InRange s.table) (pSyncManage : Option Manager) :
    CallKeeps s (.unbind pSyncManage) := by
  cases pSyncManage with
  | none => exact (callKeeps_failed h rfl).mpr rfl
  | some k =>
    cases ha : s.table.slot k with
    | none =>
      have hc : syncCall s.table (.unbind (some k)) = (s.table, .failed) := by
        simp only [syncCall, SyncTable.mediasyncInsUnbinder, ha]
      exact (callKeeps_failed h hc).mpr rfl
    | some a =>
      obtain ⟨t, ht, hok⟩ := unref_ok h ha (hr k a ha)
      have hc : syncCall s.table (.unbind (some k)) = (t, .unbound k) := by
        simp only [syncCall, ht]
      unfold CallKeeps ResultOk syncStep
      rw [hc]
      exact ⟨trivial, fun s' hs => Option.some.inj hs ▸ hok⟩

theorem callFits_iff (h : TableOk s) (hr : InRange s.table) (op : SyncOp) :
    CallFits s op ↔ CallKeeps s op := by
  cases op with
  | alloc kmalloc sDemuxId sPcrPid => exact alloc_keeps_iff h kmalloc sDemuxId sPcrPid
  | bind id => exact bind_keeps_iff h id
  | staticBind id kzalloc => exact staticBind_keeps_iff h id kzalloc
  | unbind pSyncManage => exact iff_of_true trivial (unbind_keeps h hr pSyncManage)

end

/-! ## Every run -/

section

variable {t : SyncTable} {k : Manager} {a : MediasyncIns}

theorem s32_le (x : Int) : s32 x ≤ 2147483647 := by
  unfold s32
  omega

theorem InRange.set (h : InRange t) (ha : a.mRef ≤ 2147483647) : InRange (t.set k (some a)) := by
  intro j b hb
  rcases set_slot hb with ⟨-, hb'⟩ | ⟨-, hb'⟩
  · rw [← Option.some.inj hb']
    exact ha
  · exact h j b hb'

theorem InRange.put (h : InRange t) (id sDemuxId sPcrPid : Int) :
    InRange (t.put k id sDemuxId sPcrPid) :=
  (h.set (k := k) (show (1 : Int) ≤ 2147483647 by decide) :
    InRange (t.set k (some ⟨k.val, id, t.gInstUid, sDemuxId, sPcrPid, 1⟩)))

theorem InRange.addRef (h : InRange t) : InRange (t.addRef k a) := h.set (s32_le _)

/-- Every call leaves `s32` values. -/
theorem syncCall_inRange (h : InRange t) (op : SyncOp) : InRange (syncCall t op).1 := by
  cases op with
  | alloc kmalloc sDemuxId sPcrPid =>
    show InRange (t.mediasyncInsAlloc kmalloc sDemuxId sPcrPid).1
    unfold SyncTable.mediasyncInsAlloc
    split
    · exact h
    · split
      · exact h
      · exact h.put _ _ _
  | bind id =>
    show InRange (t.mediasyncInsBinder id).1
    rcases binder_cases t id with ⟨-, hb⟩ | ⟨k, a, -, -, hb⟩
    · rw [hb]
      exact h
    · rw [hb]
      exact h.addRef
  | staticBind id kzalloc =>
    show InRange (t.mediasyncStaticInsBinder id kzalloc).1
    rcases staticBinder_cases t id kzalloc with ⟨-, hb⟩ | ⟨k, a, -, -, hb⟩
    · rw [hb]
      split
      · exact h
      · split
        · exact h
        · exact h.put _ _ _
    · rw [hb]
      exact h.addRef
  | unbind pSyncManage =>
    show InRange (t.mediasyncInsUnbinder pSyncManage).1
    unfold SyncTable.mediasyncInsUnbinder
    split
    · exact h
    · split
      · exact h
      · dsimp only
        split
        · intro j b hb
          rcases set_slot hb with ⟨-, hb'⟩ | ⟨-, hb'⟩
          · exact nomatch hb'
          · exact h j b hb'
        · exact h.set (s32_le _)

end

theorem syncInit_ok : TableOk syncInit where
  unique := fun _ _ _ _ ha => nomatch ha
  freed := fun _ => iff_of_true rfl rfl
  nonneg := fun _ => Int.le_refl 0
  counted := fun _ _ ha => nomatch ha
  kept := rfl

/-- For every sequence of calls: all of them keep the table in order and return what is right iff
all of them fit. -/
theorem calls_keep_iff (ops : List SyncOp) :
    Guarded syncStep CallKeeps syncInit ops ↔ Guarded syncStep CallFits syncInit ops := by
  refine (guarded_iff (P := fun s => TableOk s ∧ InRange s.table) ?_ ?_
    ⟨syncInit_ok, fun _ _ ha => nomatch ha⟩).symm
  · rintro s op s' ⟨h, hr⟩ hfits hs
    refine ⟨((callFits_iff h hr op).mp hfits).2 s' hs, ?_⟩
    obtain rfl := Option.some.inj hs
    exact syncCall_inRange hr op
  · rintro s op ⟨h, hr⟩
    exact callFits_iff h hr op

/-- An instance bound under 0 before the first allocation shares its identifier with it, and a
bind of a negative identifier hands out a manager that no lookup finds. -/
theorem bound_number_shared :
    ¬ Guarded syncStep CallKeeps syncInit [.staticBind 0 true, .alloc true 0 0] ∧
      ¬ Guarded syncStep CallKeeps syncInit [.staticBind (-1) true] := by
  constructor
  · rintro ⟨-, h⟩
    have hok := (h _ rfl).1.2 _ rfl
    exact absurd (hok.unique 0 10 _ _ rfl rfl rfl) (by decide)
  · rintro ⟨⟨h, -⟩, -⟩
    have hfound : (syncCall syncInit.table (.staticBind (-1) true)).1.getMediaSyncManager (-1) =
        some 10 := h
    exact nomatch hfound

end MediaModules.MediaSync
