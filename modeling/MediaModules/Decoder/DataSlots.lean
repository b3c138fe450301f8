import MediaModules.Lib.Run
import MediaModules.Lib.Holdings
import Mathlib.Data.Fintype.Basic
import Mathlib.Data.List.FinRange

/-!
# The data buffers of a decoder

A decoder keeps user data, HDR10+ data and auxiliary data in slots of three buffers each. A slot that
is no longer used is handed out again with the buffers it still has.
-/
namespace MediaModules.DataSlots

open Lib.Run Lib.Holdings

/-- The three buffers of a slot. -/
inductive BufKind
  | user
  | hdr10p
  | aux
deriving DecidableEq, Repr

/-- `ALLOC_USER_BUF`, `ALLOC_HDR10P_BUF` and `ALLOC_AUX_BUF`. -/
def BufKind.alloc : BufKind → Nat
  | .user => 0x2
  | .hdr10p => 0x4
  | .aux => 0x1

/-- The order in which the buffers are allocated and freed. -/
def BufKind.all : List BufKind := [.user, .hdr10p, .aux]

/-- `struct vdec_data_buf_s`: what a caller asks for. -/
structure VdecDataBuf where
  allocPolicy : Nat := 0
  bufSize : BufKind → Nat := fun _ => 0

/-- `struct vdec_data_s`. Buffers are named by numbers. -/
structure VdecData where
  useCount : Int := 0
  buf : BufKind → Option Nat := fun _ => none
  allocFlag : Nat := 0
  bufSize : BufKind → Nat := fun _ => 0

abbrev VDEC_DATA_NUM : Nat := 64

abbrev Slot := Fin VDEC_DATA_NUM

/-- `struct vdec_data_info_s`, with the slot each release callback belongs to. -/
structure VdecDataInfo where
  bufferCount : Int := 0
  useFlag : Int := 1
  releaseCallback : Slot → Option Slot := fun _ => none
  data : Slot → VdecData := fun _ => {}

/-- The slots, the allocated buffers with their capacity, and what the slots handed out and not yet
given back were asked for. -/
structure State where
  vdata : VdecDataInfo := {}
  capacity : Nat → Nat := fun _ => 0
  next : Nat := 0
  live : Finset Nat := ∅
  lent : Slot → Option VdecDataBuf := fun _ => none

namespace VdecDataBuf

variable (r : VdecDataBuf)

def asks (k : BufKind) : Bool := r.allocPolicy &&& k.alloc ≠ 0

end VdecDataBuf

namespace VdecData

variable (d : VdecData) (r : VdecDataBuf)

/-- A buffer size of the slot is below the size asked for. -/
def tooSmall : Bool := BufKind.all.any fun k => d.bufSize k < r.bufSize k

def unused (flag : Nat) : Bool := d.useCount = 0 && d.allocFlag = flag

end VdecData

namespace State

variable (s : State)

def data (i : Slot) : VdecData := s.vdata.data i

def setData (i : Slot) (d : VdecData) : State :=
  { s with vdata := { s.vdata with data := Function.update s.vdata.data i d } }

/-- `kfree` or `vfree` of a buffer of a slot, if it has one. -/
def freeKind (i : Slot) (k : BufKind) : State :=
  match (s.data i).buf k with
  | none => s
  | some b =>
    { s.setData i { s.data i with buf := Function.update (s.data i).buf k none } with
      live := s.live.erase b }

def freeKinds (i : Slot) : List BufKind → State → State
  | [], s => s
  | k :: ks, s => freeKinds i ks (s.freeKind i k)

/-- The three buffers of a slot are freed and it is marked as empty. -/
def freeSlot (i : Slot) : State :=
  let t := freeKinds i BufKind.all s
  t.setData i { t.data i with allocFlag := 0 }

/-- A buffer of a slot is allocated: the pointer takes what the allocation returns. -/
def allocKind (i : Slot) (k : BufKind) (size : Nat) : Bool → State
  | false => s.setData i { s.data i with buf := Function.update (s.data i).buf k none }
  | true =>
    { s.setData i { s.data i with
        buf := Function.update (s.data i).buf k (some s.next)
        bufSize := Function.update (s.data i).bufSize k size } with
      capacity := Function.update s.capacity s.next size
      next := s.next + 1
      live := insert s.next s.live }

/-- Whether an allocation succeeds: `vzalloc` of nothing does not. -/
def allocates (ok : BufKind → Bool) (k : BufKind) (size : Nat) : Bool :=
  ok k && !(k = .aux && size = 0)

/-- The allocations of `vdec_data_get_index`, until one fails. -/
def allocKinds (i : Slot) (r : VdecDataBuf) (ok : BufKind → Bool) :
    List BufKind → State → Bool × State
  | [], s => (true, s)
  | k :: ks, s =>
    if r.asks k then
      if allocates ok k (r.bufSize k) then
        allocKinds i r ok ks (s.allocKind i k (r.bufSize k) true)
      else (false, s.allocKind i k (r.bufSize k) false)
    else allocKinds i r ok ks s

/-- The slot is given to the caller. -/
def lend (i : Slot) (r : VdecDataBuf) : Option Slot × State :=
  (some i, { s.setData i { s.data i with allocFlag := 1 } with
    lent := Function.update s.lent i (some r) })

/-- An empty slot is filled and given to the caller. -/
def fill (i : Slot) (r : VdecDataBuf) (ok : BufKind → Bool) : Option Slot × State :=
  let t := allocKinds i r ok BufKind.all s
  if t.1 then t.2.lend i r else (none, t.2)

/-- The loop of `vdec_data_get_index`. -/
def getIndexLoop (r : VdecDataBuf) (ok : BufKind → Bool) : List Slot → State → Option Slot × State
  | [], s => (none, s)
  | i :: is, s =>
    if (s.data i).unused 2 && !(s.data i).tooSmall r then s.lend i r
    else
      let t := if (s.data i).unused 2 then s.freeSlot i else s
      if (t.data i).unused 0 then t.fill i r ok else getIndexLoop r ok is t

/-- `vdec_data_get_index`. -/
def vdecDataGetIndex (r : VdecDataBuf) (ok : BufKind → Bool) : Option Slot × State :=
  getIndexLoop r ok (List.finRange VDEC_DATA_NUM) s

/-- `vdec_data_buffer_count_increase`. -/
def vdecDataBufferCountIncrease (index cbIndex : Slot) : State :=
  let d := s.data index
  let t := s.setData index { d with useCount := d.useCount + 1 }
  { t with vdata := { t.vdata with
    bufferCount := if d.useCount = 0 then t.vdata.bufferCount + 1 else t.vdata.bufferCount
    releaseCallback := Function.update t.vdata.releaseCallback cbIndex (some index) } }

def freeSlots : List Slot → State → State
  | [], s => s
  | i :: is, s => freeSlots is (s.freeSlot i)

/-- The first half of `vdec_data_release`: the slot is used once less, and given back when it is no
longer used. -/
def putSlot (i : Slot) : State :=
  let d := s.data i
  let t := s.setData i { d with
    useCount := d.useCount - 1
    allocFlag := if d.useCount - 1 = 0 then 2 else d.allocFlag }
  if d.useCount - 1 = 0 then
    { t with
      vdata := { t.vdata with bufferCount := t.vdata.bufferCount - 1 }
      lent := Function.update t.lent i none }
  else t

/-- `vdec_data_release` for a slot. -/
def vdecDataRelease (i : Slot) : State :=
  let t := s.putSlot i
  if t.vdata.bufferCount = 0 then
    let u := freeSlots (List.finRange VDEC_DATA_NUM) t
    { u with vdata := { u.vdata with useFlag := 0 } }
  else t

end State

/-- A call; `ok` says which allocations succeed. -/
inductive Op
  | getIndex (r : VdecDataBuf) (ok : BufKind → Bool)
  | countIncrease (index cbIndex : Slot)
  | release (cbIndex : Slot)

/-- One call. A callback is run only once it belongs to a slot. -/
def step (s : State) : Op → Option State
  | .getIndex r ok => some (s.vdecDataGetIndex r ok).2
  | .countIncrease index cbIndex => some (s.vdecDataBufferCountIncrease index cbIndex)
  | .release cbIndex => (s.vdata.releaseCallback cbIndex).map s.vdecDataRelease

/-! ## What the callers rely on -/

/-- What a slot was asked for is there; every allocated buffer is pointed to by one slot; and a slot
handed out is not in use. -/
structure Sound (s : State) : Prop where
  kept : ∀ i r, s.lent i = some r → ∀ k, r.asks k = true →
    ∃ b ∈ s.live, (s.data i).buf k = some b ∧ r.bufSize k ≤ s.capacity b
  once : ∀ b ∈ s.live, ∃! p : Slot × BufKind, (s.data p.1).buf p.2 = some b
  unused : ∀ r ok i, (s.vdecDataGetIndex r ok).1 = some i →
    (s.data i).useCount = 0 ∧ s.lent i = none

/-- The slot `vdec_data_get_index` turns to. -/
def State.firstUnused (s : State) : Option Slot :=
  (List.finRange VDEC_DATA_NUM).find? fun i => (s.data i).unused 2 || (s.data i).unused 0

/-- The allocations up to the first that fails find no buffer in the slot. -/
def Clear (d : VdecData) (r : VdecDataBuf) (ok : BufKind → Bool) : List BufKind → Prop
  | [] => True
  | k :: ks =>
    if r.asks k then d.buf k = none ∧ (State.allocates ok k (r.bufSize k) = true → Clear d r ok ks)
    else Clear d r ok ks

/-- A slot is handed out again only with the buffers asked for, an empty slot is filled only where it
has no buffers, and the slots are emptied only when none is handed out. -/
def Careful (s : State) : Op → Prop
  | .getIndex r ok => ∀ i, s.firstUnused = some i →
    ((s.data i).allocFlag = 2 → (s.data i).tooSmall r = false →
      ∀ k, r.asks k = true → (s.data i).buf k ≠ none) ∧
    ((s.data i).allocFlag = 0 → Clear (s.data i) r ok BufKind.all)
  | .countIncrease _ _ => True
  | .release cbIndex => ∀ i, s.vdata.releaseCallback cbIndex = some i →
    (s.vdata.bufferCount = if (s.data i).useCount = 1 then 1 else 0) →
    ∀ j, s.lent j ≠ none → j = i ∧ (s.data i).useCount = 1

/-! ## The buffers of one slot -/

section Slots

variable {s t u : State} {i : Slot} {r : VdecDataBuf} {ok : BufKind → Bool}

/-- Nothing changes but the buffers of slot `i` and its flag. -/
structure Within (i : Slot) (s t : State) : Prop where
  data : ∀ j, j ≠ i → t.data j = s.data j
  useCount : (t.data i).useCount = (s.data i).useCount
  count : t.vdata.bufferCount = s.vdata.bufferCount
  lent : t.lent = s.lent
  capacity : ∀ b, b < s.next → t.capacity b = s.capacity b
  next : s.next ≤ t.next

theorem Within.refl (i : Slot) (s : State) : Within i s s :=
  ⟨fun _ _ => rfl, rfl, rfl, rfl, fun _ _ => rfl, Nat.le_refl _⟩

theorem Within.trans (h : Within i s t) (h' : Within i t u) : Within i s u :=
  ⟨fun j hj => (h'.data j hj).trans (h.data j hj), h'.useCount.trans h.useCount,
    h'.count.trans h.count, h'.lent.trans h.lent,
    fun b hb => (h'.capacity b (Nat.lt_of_lt_of_le hb h.next)).trans (h.capacity b hb),
    Nat.le_trans h.next h'.next⟩

/-- What the books say of the buffers. -/
structure Stocked (s : State) : Prop where
  owns : Owns (fun p : Slot × BufKind => (s.data p.1).buf p.2) s.live
  fresh : ∀ b ∈ s.live, b < s.next
  sized : ∀ i k b, (s.data i).buf k = some b → (s.data i).bufSize k ≤ s.capacity b

@[simp] theorem data_setData (s : State) (i : Slot) (d : VdecData) (j : Slot) :
    (s.setData i d).data j = if j = i then d else s.data j :=
  Function.update_apply ..

/-- The buffers of a slot with one pointer changed. -/
theorem held_update (s : State) (i : Slot) (k : BufKind) (x : Option Nat) (d : VdecData)
    (hd : d.buf = Function.update (s.data i).buf k x) :
    (fun p : Slot × BufKind => ((s.setData i d).data p.1).buf p.2) =
      Function.update (fun p : Slot × BufKind => (s.data p.1).buf p.2) (i, k) x := by
  funext p
  rw [data_setData, Function.update_apply]
  by_cases hp : p.1 = i
  · rw [if_pos hp, hd, Function.update_apply]
    by_cases hk : p.2 = k
    · rw [if_pos hk, if_pos (Prod.ext hp hk)]
    · rw [if_neg hk, if_neg fun heq => hk (congrArg Prod.snd heq), hp]
  · rw [if_neg hp, if_neg fun heq => hp (congrArg Prod.fst heq)]

/-- Fields of a slot that are not its buffers. -/
theorem Stocked.setData (h : Stocked s) {d : VdecData} (hbuf : d.buf = (s.data i).buf)
    (hsize : d.bufSize = (s.data i).bufSize) : Stocked (s.setData i d) := by
  have hheld : (fun p : Slot × BufKind => ((s.setData i d).data p.1).buf p.2) =
      fun p : Slot × BufKind => (s.data p.1).buf p.2 := by
    funext p
    rw [data_setData]
    split
    · next hp => rw [hbuf, hp]
    · rfl
  refine ⟨hheld ▸ h.owns, h.fresh, fun j k b hb => ?_⟩
  rw [data_setData] at hb ⊢
  split at hb
  · next hj =>
    rw [if_pos hj, hsize]
    exact h.sized i k b (hbuf ▸ hb)
  · next hj =>
    rw [if_neg hj]
    exact h.sized j k b hb

theorem within_setData (s : State) (i : Slot) {d : VdecData}
    (huse : d.useCount = (s.data i).useCount) : Within i s (s.setData i d) := by
  refine ⟨fun j hj => ?_, ?_, rfl, rfl, fun _ _ => rfl, Nat.le_refl _⟩
  · rw [data_setData, if_neg hj]
  · rw [data_setData, if_pos rfl]
    exact huse

theorem freeKind_data (s : State) (i : Slot) (k : BufKind) :
    (s.freeKind i k).data i =
      { s.data i with buf := Function.update (s.data i).buf k none } := by
  unfold State.freeKind
  cases hb : (s.data i).buf k with
  | none =>
    have hbuf : Function.update (s.data i).buf k none = (s.data i).buf := by
      rw [← hb, Function.update_eq_self]
    rw [hbuf]
  | some b =>
    show (s.setData i _).data i = _
    rw [data_setData, if_pos rfl]

theorem freeKind_within (s : State) (i : Slot) (k : BufKind) : Within i s (s.freeKind i k) := by
  unfold State.freeKind
  split
  · exact Within.refl i s
  · obtain ⟨h1, h2, h3, h4, h5, h6⟩ := within_setData s i
      (d := { s.data i with buf := Function.update (s.data i).buf k none }) rfl
    exact ⟨h1, h2, h3, h4, h5, h6⟩

theorem Stocked.freeKind (h : Stocked s) (i : Slot) (k : BufKind) : Stocked (s.freeKind i k) := by
  unfold State.freeKind
  cases hb : (s.data i).buf k with
  | none => exact h
  | some b =>
    dsimp only
    refine ⟨?_, fun x hx => h.fresh x (Finset.mem_of_mem_erase hx), fun j k' x hx => ?_⟩
    · have hheld := held_update s i k none
        { s.data i with buf := Function.update (s.data i).buf k none } rfl
      show Owns (fun p : Slot × BufKind => ((s.setData i _).data p.1).buf p.2) _
      rw [hheld]
      exact h.owns.drop hb
    · have hx : ((s.setData i { s.data i with buf := Function.update (s.data i).buf k none }).data
        j).buf k' = some x := hx
      show ((s.setData i { s.data i with buf := Function.update (s.data i).buf k none }).data
        j).bufSize k' ≤ s.capacity x
      rw [data_setData] at hx ⊢
      split at hx
      · next hj =>
        rw [if_pos hj]
        apply h.sized i k' x
        by_cases hk : k' = k
        · dsimp only at hx
          rw [hk, Function.update_self] at hx
          exact absurd hx nofun
        · dsimp only at hx
          rwa [Function.update_of_ne hk] at hx
      · next hj =>
        rw [if_neg hj]
        exact h.sized j k' x hx

theorem freeKinds_spec (i : Slot) (ks : List BufKind) (h : Stocked s) :
    Stocked (State.freeKinds i ks s) ∧ Within i s (State.freeKinds i ks s) ∧
      (State.freeKinds i ks s).data i =
        { s.data i with buf := fun k => if k ∈ ks then none else (s.data i).buf k } := by
  induction ks generalizing s with
  | nil => exact ⟨h, Within.refl i s, by simp [State.freeKinds]⟩
  | cons k ks ih =>
    obtain ⟨hstock, hwithin, hdata⟩ := ih (h.freeKind i k)
    refine ⟨hstock, (freeKind_within s i k).trans hwithin, hdata.trans ?_⟩
    rw [freeKind_data]
    have hbuf : (fun k' => if k' ∈ ks then none else Function.update (s.data i).buf k none k') =
        fun k' => if k' ∈ k :: ks then none else (s.data i).buf k' := by
      funext k'
      rw [Function.update_apply]
      by_cases hk : k' = k
      · simp [hk]
      · simp [hk]
    dsimp only
    rw [hbuf]

theorem freeSlot_spec (h : Stocked s) (i : Slot) :
    Stocked (s.freeSlot i) ∧ Within i s (s.freeSlot i) ∧
      (s.freeSlot i).data i = { s.data i with buf := fun _ => none, allocFlag := 0 } := by
  obtain ⟨hstock, hwithin, hdata⟩ := freeKinds_spec i BufKind.all h
  have hall : ∀ k, k ∈ BufKind.all := fun k => by cases k <;> decide
  refine ⟨hstock.setData rfl rfl, hwithin.trans (within_setData _ i rfl), ?_⟩
  unfold State.freeSlot
  dsimp only
  rw [data_setData, if_pos rfl, hdata]
  simp only [hall, if_true]

theorem allocKind_within (s : State) (i : Slot) (k : BufKind) (size : Nat) (done : Bool) :
    Within i s (s.allocKind i k size done) := by
  cases done with
  | false => exact within_setData s i rfl
  | true =>
    obtain ⟨h1, h2, h3, h4, h5, -⟩ := within_setData s i (d := { s.data i with
      buf := Function.update (s.data i).buf k (some s.next)
      bufSize := Function.update (s.data i).bufSize k size }) rfl
    refine ⟨h1, h2, h3, h4, fun b hb => ?_, Nat.le_succ _⟩
    exact Function.update_of_ne (Nat.ne_of_lt hb) ..

theorem allocKind_data (s : State) (i : Slot) (k : BufKind) (size : Nat) :
    (s.allocKind i k size true).data i = { s.data i with
      buf := Function.update (s.data i).buf k (some s.next)
      bufSize := Function.update (s.data i).bufSize k size } := by
  show (s.setData i _).data i = _
  rw [data_setData, if_pos rfl]

theorem Stocked.allocKind (h : Stocked s) {k : BufKind} (hnone : (s.data i).buf k = none)
    (size : Nat) (done : Bool) : Stocked (s.allocKind i k size done) := by
  cases done with
  | false =>
    refine h.setData ?_ rfl
    dsimp only
    rw [← hnone, Function.update_eq_self]
  | true =>
    have hnew : s.next ∉ s.live := fun hmem => Nat.lt_irrefl _ (h.fresh _ hmem)
    refine ⟨?_, fun x hx => ?_, fun j k' x hx => ?_⟩
    · have hheld := held_update s i k (some s.next) { s.data i with
        buf := Function.update (s.data i).buf k (some s.next)
        bufSize := Function.update (s.data i).bufSize k size } rfl
      show Owns (fun p : Slot × BufKind => ((s.setData i _).data p.1).buf p.2) _
      rw [hheld]
      exact h.owns.take hnone hnew
    · rcases Finset.mem_insert.mp hx with rfl | hx
      · exact Nat.lt_succ_self _
      · exact Nat.lt_succ_of_lt (h.fresh x hx)
    · -- the other buffers keep their size and capacity
      have hold {j : Slot} {k' : BufKind} (hx : (s.data j).buf k' = some x) :
          (s.data j).bufSize k' ≤ (s.allocKind i k size true).capacity x := by
        have hne : x ≠ s.next := fun heq => hnew (heq ▸ h.owns.live_of_held (j, k') x hx)
        show _ ≤ Function.update s.capacity s.next size x
        rw [Function.update_of_ne hne]
        exact h.sized j k' x hx
      by_cases hj : j = i
      · rw [hj, allocKind_data] at hx ⊢
        dsimp only at hx ⊢
        by_cases hk : k' = k
        · rw [hk, Function.update_self] at hx ⊢
          show size ≤ Function.update s.capacity s.next size x
          rw [← Option.some.inj hx, Function.update_self]
        · rw [Function.update_of_ne hk] at hx ⊢
          exact hold hx
      · rw [(allocKind_within s i k size true).data j hj] at hx ⊢
        exact hold hx

theorem Clear.congr {d d' : VdecData} {ks : List BufKind} (h : Clear d r ok ks)
    (hbuf : ∀ k ∈ ks, d'.buf k = d.buf k) : Clear d' r ok ks := by
  induction ks with
  | nil => trivial
  | cons k ks ih =>
    have htail : ∀ k' ∈ ks, d'.buf k' = d.buf k' := fun k' hk => hbuf k' (List.mem_cons_of_mem k hk)
    simp only [Clear] at h ⊢
    split at h
    · next hasks =>
      rw [if_pos hasks]
      exact ⟨(hbuf k List.mem_cons_self).trans h.1, fun hok => ih (h.2 hok) htail⟩
    · next hasks =>
      rw [if_neg hasks]
      exact ih h htail

/-- The buffers of the kinds asked for are allocated, each in the place of none. -/
theorem allocKinds_spec (ks : List BufKind) (hks : ks.Nodup) (h : Stocked s)
    (hclear : Clear (s.data i) r ok ks) :
    Stocked (State.allocKinds i r ok ks s).2 ∧ Within i s (State.allocKinds i r ok ks s).2 ∧
      (∀ k, k ∉ ks → ((State.allocKinds i r ok ks s).2.data i).buf k = (s.data i).buf k ∧
        ((State.allocKinds i r ok ks s).2.data i).bufSize k = (s.data i).bufSize k) ∧
      ((State.allocKinds i r ok ks s).1 = true → ∀ k ∈ ks, r.asks k = true →
        ∃ b, ((State.allocKinds i r ok ks s).2.data i).buf k = some b ∧
          ((State.allocKinds i r ok ks s).2.data i).bufSize k = r.bufSize k) := by
  induction ks generalizing s with
  | nil => exact ⟨h, Within.refl i s, fun _ _ => ⟨rfl, rfl⟩, fun _ k hk => absurd hk List.not_mem_nil⟩
  | cons k ks ih =>
    obtain ⟨hk, hks⟩ := List.nodup_cons.mp hks
    simp only [Clear] at hclear
    simp only [State.allocKinds]
    by_cases hasks : r.asks k = true
    · rw [if_pos hasks] at hclear ⊢
      obtain ⟨hnone, hrest⟩ := hclear
      by_cases hdone : State.allocates ok k (r.bufSize k) = true
      · rw [if_pos hdone]
        have hdata := allocKind_data s i k (r.bufSize k)
        have hsame {k' : BufKind} (hk' : k' ≠ k) :
            ((s.allocKind i k (r.bufSize k) true).data i).buf k' = (s.data i).buf k' ∧
            ((s.allocKind i k (r.bufSize k) true).data i).bufSize k' = (s.data i).bufSize k' := by
          rw [hdata]
          exact ⟨Function.update_of_ne hk' .., Function.update_of_ne hk' ..⟩
        obtain ⟨hstock, hwithin, hold, hnew⟩ := ih hks (h.allocKind hnone (r.bufSize k) true)
          ((hrest hdone).congr fun k' hk' => (hsame fun heq => hk (heq ▸ hk')).1)
        refine ⟨hstock, (allocKind_within s i k (r.bufSize k) true).trans hwithin,
          fun k' hk' => ?_, fun hall k' hk' hasks' => ?_⟩
        · obtain ⟨hne, hnot⟩ := not_or.mp fun hor => hk' (List.mem_cons.mpr hor)
          obtain ⟨h1, h2⟩ := hold k' hnot
          exact ⟨h1.trans (hsame hne).1, h2.trans (hsame hne).2⟩
        · rcases List.mem_cons.mp hk' with rfl | hmem
          · obtain ⟨h1, h2⟩ := hold k' hk
            rw [hdata] at h1 h2
            exact ⟨s.next, h1.trans (Function.update_self ..), h2.trans (Function.update_self ..)⟩
          · exact hnew hall k' hmem hasks'
      · rw [if_neg hdone]
        refine ⟨h.allocKind hnone (r.bufSize k) false, allocKind_within s i k (r.bufSize k) false,
          fun k' hk' => ?_, nofun⟩
        have hne : k' ≠ k := fun heq => hk' (heq ▸ List.mem_cons_self)
        have hdata : (s.allocKind i k (r.bufSize k) false).data i =
            { s.data i with buf := Function.update (s.data i).buf k none } := by
          show (s.setData i _).data i = _
          rw [data_setData, if_pos rfl]
        rw [hdata]
        exact ⟨Function.update_of_ne hne .., rfl⟩
    · rw [if_neg hasks] at hclear ⊢
      obtain ⟨hstock, hwithin, hold, hnew⟩ := ih hks h hclear
      refine ⟨hstock, hwithin, fun k' hk' => hold k' fun hmem => hk' (List.mem_cons_of_mem k hmem),
        fun hall k' hk' hasks' => ?_⟩
      rcases List.mem_cons.mp hk' with rfl | hmem
      · exact absurd hasks' hasks
      · exact hnew hall k' hmem hasks'

/-! ## Every call -/

/-- The slot the loop turns to is lent with what it has, or emptied where that is too small, and
filled. -/
def State.visit (s : State) (r : VdecDataBuf) (ok : BufKind → Bool) (i : Slot) :
    Option Slot × State :=
  if (s.data i).unused 2 then
    if (s.data i).tooSmall r then (s.freeSlot i).fill i r ok else s.lend i r
  else s.fill i r ok

theorem getIndexLoop_eq (is : List Slot) (h : Stocked s) :
    State.getIndexLoop r ok is s =
      match is.find? fun i => (s.data i).unused 2 || (s.data i).unused 0 with
      | none => (none, s)
      | some i => s.visit r ok i := by
  induction is with
  | nil => rfl
  | cons i is ih =>
    have hfreed : (s.data i).unused 2 = true → ((s.freeSlot i).data i).unused 0 = true := by
      intro h2
      rw [(freeSlot_spec h i).2.2]
      unfold VdecData.unused at h2 ⊢
      simp only [Bool.and_eq_true] at h2 ⊢
      exact ⟨h2.1, rfl⟩
    simp only [State.getIndexLoop, List.find?_cons]
    cases h2 : (s.data i).unused 2 with
    | true =>
      simp only [Bool.true_or, Bool.true_and, if_true, hfreed h2]
      unfold State.visit
      rw [if_pos h2]
      cases (s.data i).tooSmall r <;> rfl
    | false =>
      simp only [Bool.false_or, Bool.false_and, Bool.false_eq_true, if_false]
      cases h0 : (s.data i).unused 0 with
      | true =>
        simp only [if_true]
        unfold State.visit
        rw [if_neg (by simp [h2])]
      | false =>
        simp only [Bool.false_eq_true, if_false]
        exact ih

theorem vdecDataGetIndex_eq (h : Stocked s) : s.vdecDataGetIndex r ok =
    match s.firstUnused with
    | none => (none, s)
    | some i => s.visit r ok i :=
  getIndexLoop_eq _ h

/-- The slots in use, as `buffer_count` counts them. -/
def State.used (s : State) : Finset Slot := Finset.univ.filter fun i => 0 < (s.data i).useCount

/-- What holds between the calls. -/
structure Kept (s : State) : Prop where
  stocked : Stocked s
  lent : ∀ i r, s.lent i = some r → (s.data i).allocFlag = 1 ∧ ∀ k, r.asks k = true →
    ∃ b, (s.data i).buf k = some b ∧ r.bufSize k ≤ s.capacity b
  count : s.vdata.bufferCount = s.used.card

theorem Within.used (h : Within i s t) : t.used = s.used := by
  apply Finset.filter_congr
  intro j _
  by_cases hj : j = i
  · rw [hj, h.useCount]
  · rw [h.data j hj]

/-- A change of a slot that is not lent. -/
theorem Kept.within (h : Kept s) (hwithin : Within i s t) (hstock : Stocked t)
    (hnone : s.lent i = none) : Kept t := by
  refine ⟨hstock, fun j r hj => ?_, ?_⟩
  · rw [hwithin.lent] at hj
    have hji : j ≠ i := fun heq => by
      rw [heq, hnone] at hj
      exact absurd hj nofun
    obtain ⟨hflag, hbufs⟩ := h.lent j r hj
    rw [hwithin.data j hji]
    refine ⟨hflag, fun k hk => ?_⟩
    obtain ⟨b, hb, hcap⟩ := hbufs k hk
    refine ⟨b, hb, ?_⟩
    rw [hwithin.capacity b (h.stocked.fresh b (h.stocked.owns.live_of_held (j, k) b hb))]
    exact hcap
  · rw [hwithin.count, hwithin.used]
    exact h.count

/-- A slot that has what it is asked for is lent. -/
theorem Kept.lend (h : Kept s) (hbufs : ∀ k, r.asks k = true →
    ∃ b, (s.data i).buf k = some b ∧ r.bufSize k ≤ (s.data i).bufSize k) :
    Kept (s.lend i r).2 := by
  have hwithin : Within i s (s.setData i { s.data i with allocFlag := 1 }) :=
    within_setData s i rfl
  have hdata : (s.setData i { s.data i with allocFlag := 1 }).data i =
      { s.data i with allocFlag := 1 } := by
    rw [data_setData, if_pos rfl]
  have hstock : Stocked (s.setData i { s.data i with allocFlag := 1 }) :=
    h.stocked.setData rfl rfl
  refine ⟨⟨hstock.owns, hstock.fresh, hstock.sized⟩, fun j r' hj => ?_, ?_⟩
  · have hj : Function.update s.lent i (some r) j = some r' := hj
    show ((s.setData i { s.data i with allocFlag := 1 }).data j).allocFlag = 1 ∧ _
    by_cases hji : j = i
    · rw [hji, Function.update_self] at hj
      rw [hji, hdata]
      refine ⟨rfl, fun k hk => ?_⟩
      rw [← Option.some.inj hj] at hk ⊢
      obtain ⟨b, hb, hsize⟩ := hbufs k hk
      refine ⟨b, ?_, Nat.le_trans hsize (h.stocked.sized i k b hb)⟩
      exact (congrArg (fun d : VdecData => d.buf k) hdata).trans hb
    · rw [Function.update_of_ne hji] at hj
      rw [hwithin.data j hji]
      obtain ⟨hflag, hall⟩ := h.lent j r' hj
      refine ⟨hflag, fun k hk => ?_⟩
      obtain ⟨b, hb, hcap⟩ := hall k hk
      exact ⟨b, (congrArg (fun d : VdecData => d.buf k) (hwithin.data j hji)).trans hb, hcap⟩
  · have hused := hwithin.used
    exact h.count.trans (congrArg (fun u : Finset Slot => (u.card : Int)) hused.symm)

theorem Kept.fill (h : Kept s) (hnone : s.lent i = none)
    (hclear : Clear (s.data i) r ok BufKind.all) : Kept (s.fill i r ok).2 := by
  obtain ⟨hstock, hwithin, -, hnew⟩ :=
    allocKinds_spec BufKind.all (by decide) h.stocked hclear
  have hall : ∀ k, k ∈ BufKind.all := fun k => by cases k <;> decide
  have hkept := h.within hwithin hstock hnone
  unfold State.fill
  dsimp only
  split
  · next hdone =>
    apply hkept.lend
    intro k hk
    obtain ⟨b, hb, hsize⟩ := hnew hdone k (hall k) hk
    exact ⟨b, hb, Nat.le_of_eq hsize.symm⟩
  · exact hkept

theorem clear_of_none {d : VdecData} (h : ∀ k, d.buf k = none) (ks : List BufKind) :
    Clear d r ok ks := by
  induction ks with
  | nil => trivial
  | cons k ks ih =>
    simp only [Clear]
    split
    · exact ⟨h k, fun _ => ih⟩
    · exact ih

theorem firstUnused_spec (h : s.firstUnused = some i) :
    (s.data i).useCount = 0 ∧ ((s.data i).allocFlag = 2 ∨ (s.data i).allocFlag = 0) := by
  have hfound := List.find?_some h
  unfold VdecData.unused at hfound
  simp only [Bool.or_eq_true, Bool.and_eq_true, decide_eq_true_eq] at hfound
  exact ⟨hfound.elim And.left And.left, hfound.imp And.right And.right⟩

theorem Kept.not_lent (h : Kept s) (hflag : (s.data i).allocFlag ≠ 1) : s.lent i = none := by
  cases hl : s.lent i with
  | none => rfl
  | some r => exact absurd (h.lent i r hl).1 hflag

theorem Kept.getIndex (h : Kept s) (hok : Careful s (.getIndex r ok)) :
    Kept (s.vdecDataGetIndex r ok).2 := by
  rw [vdecDataGetIndex_eq h.stocked]
  cases hfirst : s.firstUnused with
  | none => exact h
  | some i =>
    obtain ⟨hrecycle, hfill⟩ := hok i hfirst
    obtain ⟨huse, hflag⟩ := firstUnused_spec hfirst
    have hnone := h.not_lent (i := i) (by omega)
    show Kept (s.visit r ok i).2
    unfold State.visit
    split
    · next h2 =>
      unfold VdecData.unused at h2
      simp only [Bool.and_eq_true, decide_eq_true_eq] at h2
      split
      · obtain ⟨hstock, hwithin, hdata⟩ := freeSlot_spec h.stocked i
        apply (h.within hwithin hstock hnone).fill (hwithin.lent ▸ hnone)
        rw [hdata]
        exact clear_of_none (fun _ => rfl) _
      · next hsmall =>
        have hsmall := Bool.eq_false_iff.mpr hsmall
        apply h.lend
        intro k hk
        obtain ⟨b, hb⟩ := Option.ne_none_iff_exists'.mp (hrecycle h2.2 hsmall k hk)
        refine ⟨b, hb, ?_⟩
        have hall : k ∈ BufKind.all := by cases k <;> decide
        have hle := List.any_eq_false.mp hsmall k hall
        rw [decide_eq_true_eq] at hle
        exact Nat.not_lt.mp hle
    · next h2 =>
      refine h.fill hnone (hfill (hflag.resolve_left fun hf => h2 ?_))
      unfold VdecData.unused
      rw [huse, hf]
      rfl

/-- A change of counts, and slots given back. -/
theorem Kept.recount (h : Kept s) (hbuf : ∀ j, (t.data j).buf = (s.data j).buf)
    (hsize : ∀ j, (t.data j).bufSize = (s.data j).bufSize)
    (hlent : ∀ j r, t.lent j = some r →
      s.lent j = some r ∧ (t.data j).allocFlag = (s.data j).allocFlag)
    (hcap : t.capacity = s.capacity) (hnext : t.next = s.next) (hlive : t.live = s.live)
    (hcount : t.vdata.bufferCount = t.used.card) : Kept t := by
  have hheld : (fun p : Slot × BufKind => (t.data p.1).buf p.2) =
      fun p : Slot × BufKind => (s.data p.1).buf p.2 := funext fun p => by rw [hbuf]
  refine ⟨⟨?_, ?_, fun j k b hb => ?_⟩, fun j r hj => ?_, hcount⟩
  · rw [hheld, hlive]
    exact h.stocked.owns
  · rw [hlive, hnext]
    exact h.stocked.fresh
  · rw [hsize, hcap]
    exact h.stocked.sized j k b (hbuf j ▸ hb)
  · obtain ⟨hj, hflag⟩ := hlent j r hj
    rw [hflag, hbuf, hcap]
    exact h.lent j r hj

theorem used_setData (s : State) (i : Slot) (d : VdecData) :
    (s.setData i d).used = if 0 < d.useCount then insert i s.used else s.used.erase i := by
  ext j
  unfold State.used
  rw [Finset.mem_filter, data_setData]
  by_cases hj : j = i
  · rw [if_pos hj, hj]
    split
    · next hpos => exact iff_of_true ⟨Finset.mem_univ i, hpos⟩ (Finset.mem_insert_self ..)
    · next hpos => exact iff_of_false (fun h => hpos h.2) (Finset.notMem_erase i _)
  · rw [if_neg hj]
    split
    · rw [Finset.mem_insert, Finset.mem_filter]
      exact ⟨Or.inr, fun h => h.resolve_left hj⟩
    · rw [Finset.mem_erase, Finset.mem_filter]
      exact ⟨fun h => ⟨hj, h⟩, And.right⟩

theorem mem_used : i ∈ s.used ↔ 0 < (s.data i).useCount := by
  unfold State.used
  rw [Finset.mem_filter]
  exact and_iff_right (Finset.mem_univ i)

theorem Kept.countIncrease (h : Kept s) (index cbIndex : Slot) :
    Kept (s.vdecDataBufferCountIncrease index cbIndex) := by
  have hdata (j : Slot) : (s.vdecDataBufferCountIncrease index cbIndex).data j =
      if j = index then { s.data index with useCount := (s.data index).useCount + 1 }
      else s.data j := data_setData ..
  refine h.recount (fun j => ?_) (fun j => ?_) (fun j r hj => ⟨hj, ?_⟩) rfl rfl rfl ?_
  · rw [hdata]
    split
    · next hj => rw [hj]
    · rfl
  · rw [hdata]
    split
    · next hj => rw [hj]
    · rfl
  · rw [hdata]
    split
    · next hj => rw [hj]
    · rfl
  · show (if (s.data index).useCount = 0 then s.vdata.bufferCount + 1 else s.vdata.bufferCount) =
      ((s.setData index { s.data index with useCount := (s.data index).useCount + 1 }).used.card : Int)
    rw [used_setData, h.count]
    dsimp only
    split
    · next hzero =>
      have hnot : index ∉ s.used := fun hmem => by
        have hpos := mem_used.mp hmem
        omega
      rw [if_pos (by omega), Finset.card_insert_of_notMem hnot]
      exact (Nat.cast_succ _).symm
    · split
      · next hpos =>
        rw [Finset.insert_eq_of_mem (mem_used.mpr (by omega))]
      · next hpos =>
        rw [Finset.erase_eq_of_notMem fun hmem => hpos (by have := mem_used.mp hmem; omega)]

theorem putSlot_data (s : State) (i j : Slot) : (s.putSlot i).data j =
    if j = i then { s.data i with
      useCount := (s.data i).useCount - 1
      allocFlag := if (s.data i).useCount - 1 = 0 then 2 else (s.data i).allocFlag }
    else s.data j := by
  unfold State.putSlot
  dsimp only
  split <;> exact data_setData ..

theorem putSlot_count (s : State) (i : Slot) : (s.putSlot i).vdata.bufferCount =
    s.vdata.bufferCount - if (s.data i).useCount = 1 then 1 else 0 := by
  unfold State.putSlot
  dsimp only
  split
  · next huse =>
    rw [if_pos (show (s.data i).useCount = 1 by omega)]
    rfl
  · next huse =>
    rw [if_neg (show ¬ (s.data i).useCount = 1 by omega)]
    exact (Int.sub_zero _).symm

theorem putSlot_lent (s : State) (i j : Slot) : (s.putSlot i).lent j =
    if j = i ∧ (s.data i).useCount = 1 then none else s.lent j := by
  unfold State.putSlot
  dsimp only
  split
  · next huse =>
    have hone : (s.data i).useCount = 1 := by omega
    simp only [hone, and_true]
    exact Function.update_apply ..
  · next huse =>
    rw [if_neg fun hc => huse (by omega)]
    rfl

theorem Kept.putSlot (h : Kept s) (i : Slot) : Kept (s.putSlot i) := by
  have hrest : (s.putSlot i).capacity = s.capacity ∧ (s.putSlot i).next = s.next ∧
      (s.putSlot i).live = s.live := by
    unfold State.putSlot
    dsimp only
    split <;> exact ⟨rfl, rfl, rfl⟩
  refine h.recount (fun j => ?_) (fun j => ?_) (fun j r hj => ?_) hrest.1 hrest.2.1 hrest.2.2 ?_
  · rw [putSlot_data]
    split
    · next hj => rw [hj]
    · rfl
  · rw [putSlot_data]
    split
    · next hj => rw [hj]
    · rfl
  · rw [putSlot_lent] at hj
    split at hj
    · exact absurd hj nofun
    · next hc =>
      refine ⟨hj, ?_⟩
      rw [putSlot_data]
      split
      · next hji =>
        rw [hji]
        exact if_neg fun huse => hc ⟨hji, by omega⟩
      · rfl
  · have hused : (s.putSlot i).used =
        (s.setData i { s.data i with useCount := (s.data i).useCount - 1 }).used := by
      apply Finset.filter_congr
      intro j _
      rw [putSlot_data, data_setData]
      split <;> rfl
    rw [hused, used_setData, putSlot_count, h.count]
    dsimp only
    by_cases huse : (s.data i).useCount = 1
    · have hmem : i ∈ s.used := mem_used.mpr (by omega)
      have hcard := Finset.card_erase_add_one hmem
      rw [if_pos huse, if_neg (by omega)]
      omega
    · rw [if_neg huse, Int.sub_zero]
      split
      · next hpos => rw [Finset.insert_eq_of_mem (mem_used.mpr (by omega))]
      · next hpos =>
        rw [Finset.erase_eq_of_notMem fun hmem => hpos (by have := mem_used.mp hmem; omega)]

/-- All slots are emptied while none is lent. -/
theorem Kept.freeSlots (h : Kept s) (hnone : ∀ j, s.lent j = none) (is : List Slot) :
    Kept (State.freeSlots is s) := by
  induction is generalizing s with
  | nil => exact h
  | cons i is ih =>
    obtain ⟨hstock, hwithin, -⟩ := freeSlot_spec h.stocked i
    exact ih (h.within hwithin hstock (hnone i)) fun j => hwithin.lent ▸ hnone j

theorem Kept.release (h : Kept s) (i : Slot)
    (hok : (s.vdata.bufferCount = if (s.data i).useCount = 1 then 1 else 0) →
      ∀ j, s.lent j ≠ none → j = i ∧ (s.data i).useCount = 1) : Kept (s.vdecDataRelease i) := by
  have hput := h.putSlot i
  unfold State.vdecDataRelease
  dsimp only
  split
  · next hzero =>
    have hnone : ∀ j, (s.putSlot i).lent j = none := by
      intro j
      rw [putSlot_count] at hzero
      rw [putSlot_lent]
      by_contra hne
      split at hne
      · exact hne rfl
      · next hc => exact hc (hok (by omega) j hne)
    have hall := hput.freeSlots hnone (List.finRange VDEC_DATA_NUM)
    generalize State.freeSlots (List.finRange VDEC_DATA_NUM) (s.putSlot i) = u at hall ⊢
    exact ⟨⟨hall.stocked.owns, hall.stocked.fresh, hall.stocked.sized⟩, hall.lent, hall.count⟩
  · exact hput

theorem Kept.sound (h : Kept s) : Sound s := by
  refine ⟨fun i r hi k hk => ?_, h.stocked.owns.once, fun r ok i hi => ?_⟩
  · obtain ⟨b, hb, hcap⟩ := (h.lent i r hi).2 k hk
    exact ⟨b, h.stocked.owns.live_of_held (i, k) b hb, hb, hcap⟩
  · rw [vdecDataGetIndex_eq h.stocked] at hi
    cases hfirst : s.firstUnused with
    | none =>
      rw [hfirst] at hi
      exact absurd hi nofun
    | some j =>
      rw [hfirst] at hi
      have hfill {u : State} {x : Slot} (hx : (u.fill j r ok).1 = some x) : j = x := by
        unfold State.fill at hx
        dsimp only at hx
        split at hx
        · exact Option.some.inj hx
        · exact absurd hx nofun
      have hji : j = i := by
        have hi : (s.visit r ok j).1 = some i := hi
        unfold State.visit at hi
        split at hi
        · split at hi
          · exact hfill hi
          · exact Option.some.inj hi
        · exact hfill hi
      obtain ⟨huse, hflag⟩ := firstUnused_spec hfirst
      rw [← hji]
      exact ⟨huse, h.not_lent (by omega)⟩

theorem kept_step (op : Op) (h : Kept s) (hok : Careful s op) (ht : step s op = some t) :
    Kept t := by
  cases op with
  | getIndex r ok => exact Option.some.inj ht ▸ h.getIndex hok
  | countIncrease index cbIndex => exact Option.some.inj ht ▸ h.countIncrease index cbIndex
  | release cbIndex =>
    obtain ⟨i, hi, rfl⟩ := Option.map_eq_some_iff.mp ht
    exact h.release i (hok i hi)

end Slots

theorem kept_start : Kept {} := by
  refine ⟨⟨⟨nofun, fun b hb => absurd hb (Finset.notMem_empty b)⟩,
    fun b hb => absurd hb (Finset.notMem_empty b), nofun⟩, nofun, ?_⟩
  have hnone : State.used {} = ∅ :=
    Finset.filter_eq_empty_iff.mpr fun i _ => show ¬ (0 : Int) < 0 by decide
  rw [hnone]
  rfl

/-- While the slots are used with care, callers get and keep what they asked for, and no buffer is
lost. -/
theorem slots_sound (ops : List Op) (hok : Guarded step Careful {} ops) :
    Always step Sound {} ops :=
  (always_of_guarded (fun _ op _ h hop ht => kept_step op h hop ht) kept_start hok).imp
    fun _ h => h.sound

instance (d : VdecData) (r : VdecDataBuf) (ok : BufKind → Bool) :
    (ks : List BufKind) → Decidable (Clear d r ok ks)
  | [] => .isTrue trivial
  | k :: ks =>
    have := instDecidableClear d r ok ks
    inferInstanceAs (Decidable (if r.asks k then
      d.buf k = none ∧ (State.allocates ok k (r.bufSize k) = true → Clear d r ok ks)
    else Clear d r ok ks))

instance : Fintype BufKind := ⟨{.user, .hdr10p, .aux}, fun k => by cases k <;> decide⟩

instance (s : State) : (op : Op) → Decidable (Careful s op)
  | .getIndex r ok => inferInstanceAs (Decidable (∀ i ∈ s.firstUnused,
    ((s.data i).allocFlag = 2 → (s.data i).tooSmall r = false →
      ∀ k, r.asks k = true → (s.data i).buf k ≠ none) ∧
    ((s.data i).allocFlag = 0 → Clear (s.data i) r ok BufKind.all)))
  | .countIncrease _ _ => .isTrue trivial
  | .release cbIndex => inferInstanceAs (Decidable (∀ i ∈ s.vdata.releaseCallback cbIndex,
    (s.vdata.bufferCount = if (s.data i).useCount = 1 then 1 else 0) →
    ∀ j, s.lent j ≠ none → j = i ∧ (s.data i).useCount = 1))

/-- User data for ten bytes. -/
def userData : VdecDataBuf := { allocPolicy := 0x2, bufSize := fun _ => 10 }

/-- User data and HDR10+ data for ten bytes each. -/
def userAndHdr10p : VdecDataBuf := { allocPolicy := 0x6, bufSize := fun _ => 10 }

/-- Two slots are handed out and used, the first one is given back and handed out again with its
buffer, and with the last release all slots are emptied. -/
def recyclingCalls : List Op :=
  [.getIndex userData fun _ => true, .getIndex userAndHdr10p fun _ => true, .countIncrease 0 0,
    .countIncrease 1 1, .release 0, .getIndex userData fun _ => true, .countIncrease 0 0, .release 1,
    .release 0]

theorem slots_sound_recycling : Always step Sound {} recyclingCalls :=
  slots_sound recyclingCalls (by decide +kernel)

/-- The second allocation fails, and the next call overwrites the pointer to the first buffer. -/
theorem buffer_lost : ¬ ∀ ops, Always step Sound {} ops := by
  intro h
  have hrun := always_last (h [.getIndex userAndHdr10p fun k => k = .user,
    .getIndex userAndHdr10p fun _ => true]) rfl
  obtain ⟨⟨i, k⟩, hp, -⟩ := hrun.once 0 (by decide +kernel)
  have hk : k ∈ BufKind.all := by cases k <;> decide
  revert hp
  revert hk
  revert i k
  decide +kernel

end MediaModules.DataSlots
