import MediaModules.Lib.Bits
import MediaModules.Lib.Run
import Mathlib.Logic.Function.Basic
import Mathlib.Algebra.Order.Ring.Int

/-!
# The canvas table

`get_canvas_ex` and `free_canvas_ex`. The decoder instances share the entries of one table: an entry
has a type and the set of its users. The indices handed out come from two ranges, of which the table
is the concatenation.
-/
namespace MediaModules.Canvas

open MediaModules.Lib.Bits

/-- `struct canvas_status_s`. `id` has one bit for each decoder instance. -/
structure CanvasStatus where
  type : Int := 0
  canvasUsedFlag : Int := 0
  id : BitVec 32 := 0#32
deriving DecidableEq, Repr

/-- The canvases of the decoders: `0 ..= AMVDEC_CANVAS_MAX2` and
`AMVDEC_CANVAS_START_INDEX ..= AMVDEC_CANVAS_MAX1`. The first range goes beyond the canvases of rdma,
the second one lies above the first. -/
structure CanvasRange where
  max2 : Nat
  startIndex : Nat
  max1 : Nat
  rdma_le : 0x15 ≤ max2
  max2_lt : max2 < startIndex
  start_le : startIndex ≤ max1

abbrev Table := Nat → CanvasStatus

namespace CanvasRange

variable (c : CanvasRange)

/-- `CANVAS_MAX_SIZE`. -/
def maxSize : Nat := c.max1 - c.startIndex + 1 + c.max2 + 1

/-- The index returned for an entry. -/
def index (i : Nat) : Int :=
  if i < c.max2 + 1 then i else (i : Int) + c.startIndex - c.max2 - 1

/-- The entry of an index. -/
def offset (index : Int) : Option Nat :=
  if 0 ≤ index ∧ index < c.max2 + 1 then some index.toNat
  else if (c.startIndex : Int) ≤ index ∧ index ≤ c.max1 then
    some (index + c.max2 + 1 - c.startIndex).toNat
  else none

/-- The first entry that passes the test. 0x10-0x15 has been used by rdma. -/
def scan (p : Nat → Bool) : Option Nat :=
  (List.range c.maxSize).find? fun i => !(decide (i ≥ 0x10) && decide (i ≤ 0x15)) && p i

end CanvasRange

/-- `get_canvas_ex`: an entry of the type that the instance does not use yet, else a free one. -/
def getCanvasEx (c : CanvasRange) (stat : Table) (type : Int) (id : Nat) : Int × Table :=
  match c.scan fun i => (stat i).type = type && (stat i).id &&& 1#32 <<< id = 0#32 with
  | some i => (c.index i, Function.update stat i
      { stat i with
        canvasUsedFlag := (stat i).canvasUsedFlag + 1
        id := (stat i).id ||| 1#32 <<< id })
  | none =>
    match c.scan fun i => (stat i).type = 0 with
    | some i => (c.index i, Function.update stat i ⟨type, 1, 1#32 <<< id⟩)
    | none => (-1, stat)

/-- An entry without one of its users. -/
def CanvasStatus.leave (e : CanvasStatus) (id : Nat) : CanvasStatus :=
  let e := { e with canvasUsedFlag := e.canvasUsedFlag - 1, id := e.id &&& ~~~(1#32 <<< id) }
  if e.canvasUsedFlag = 0 then { e with type := 0, id := 0#32 } else e

/-- `free_canvas_ex`. -/
def freeCanvasEx (c : CanvasRange) (stat : Table) (index : Int) (id : Nat) : Table :=
  match c.offset index with
  | none => stat
  | some offset =>
    if (stat offset).canvasUsedFlag > 0 ∧ (stat offset).id &&& 1#32 <<< id ≠ 0#32 then
      Function.update stat offset ((stat offset).leave id)
    else stat

/-! ## The two ranges -/

namespace CanvasRange

variable (c : CanvasRange) {i : Nat} {index : Int}

theorem offset_index (h : i < c.maxSize) : c.offset (c.index i) = some i := by
  have h1 := c.max2_lt
  have h2 := c.start_le
  unfold maxSize at h
  unfold CanvasRange.index offset
  split
  · rw [if_pos (by omega)]
    rfl
  · rw [if_neg (by omega), if_pos (by omega)]
    exact congrArg some (by omega)

theorem index_offset (h : c.offset index = some i) : i < c.maxSize ∧ c.index i = index := by
  have h1 := c.max2_lt
  have h2 := c.start_le
  unfold offset at h
  unfold maxSize CanvasRange.index
  split at h
  · rw [← Option.some.inj h]
    split <;> omega
  · split at h
    · rw [← Option.some.inj h]
      split <;> omega
    · exact absurd h nofun

theorem index_injective {j : Nat} (hi : i < c.maxSize) (hj : j < c.maxSize)
    (h : c.index i = c.index j) : i = j := by
  have hoff := c.offset_index hi
  rw [h, c.offset_index hj] at hoff
  exact (Option.some.inj hoff).symm

theorem index_nonneg (i : Nat) : 0 ≤ c.index i := by
  have h1 := c.max2_lt
  unfold CanvasRange.index
  split <;> omega

theorem index_not_rdma (h : ¬ (0x10 ≤ i ∧ i ≤ 0x15)) :
    ¬ (0x10 ≤ c.index i ∧ c.index i ≤ 0x15) := by
  have h1 := c.max2_lt
  have h3 := c.rdma_le
  unfold CanvasRange.index
  split <;> omega

theorem scan_spec {p : Nat → Bool} (h : c.scan p = some i) :
    i < c.maxSize ∧ ¬ (0x10 ≤ i ∧ i ≤ 0x15) ∧ p i = true := by
  have hmem := List.mem_range.mp (List.mem_of_find?_eq_some h)
  have hp := List.find?_some h
  rw [Bool.and_eq_true, Bool.not_eq_true', ← Bool.decide_and, decide_eq_false_iff_not] at hp
  exact ⟨hmem, hp.1, hp.2⟩

end CanvasRange

/-! ## What a call does to an entry -/

section Calls

variable {c : CanvasRange} {stat : Table} {id : Nat}

/-- What `get_canvas_ex` does: it fails and changes nothing, or it gives the instance one entry, of
the type wanted or free. -/
theorem getCanvasEx_cases (c : CanvasRange) (stat : Table) (type : Int) (hid : id < 32) :
    getCanvasEx c stat type id = (-1, stat) ∨
      ∃ i, i < c.maxSize ∧ ¬ (0x10 ≤ i ∧ i ≤ 0x15) ∧
        ((stat i).type = type ∧ (stat i).id.getLsbD id = false ∧
          getCanvasEx c stat type id = (c.index i, Function.update stat i
            { stat i with
              canvasUsedFlag := (stat i).canvasUsedFlag + 1
              id := (stat i).id ||| 1#32 <<< id }) ∨
        (stat i).type = 0 ∧ getCanvasEx c stat type id =
          (c.index i, Function.update stat i ⟨type, 1, 1#32 <<< id⟩)) := by
  unfold getCanvasEx
  split
  · next i hi =>
    obtain ⟨hlt, hrdma, hp⟩ := c.scan_spec hi
    rw [Bool.and_eq_true, decide_eq_true_eq, decide_eq_true_eq, and_shift_eq_zero _ hid] at hp
    exact Or.inr ⟨i, hlt, hrdma, Or.inl ⟨hp.1, hp.2, rfl⟩⟩
  · split
    · next i hi =>
      obtain ⟨hlt, hrdma, hp⟩ := c.scan_spec hi
      exact Or.inr ⟨i, hlt, hrdma, Or.inr ⟨of_decide_eq_true hp, rfl⟩⟩
    · exact Or.inl rfl

end Calls

/-! ## The instances and what they hold -/

/-- The table, and the type under which an instance obtained an index it holds. -/
structure System where
  stat : Table := fun _ => {}
  held : Nat → Int → Option Int := fun _ _ => none

inductive Op
  | get (type : Int) (id : Nat)
  | free (index : Int) (id : Nat)

/-- Decoder instances have ids below 31 and ask for a type that is not zero. -/
def Op.Valid : Op → Prop
  | .get type id => type ≠ 0 ∧ id < 31
  | .free _ id => id < 31

/-- An instance holds what it obtains until it frees it. -/
def System.hold (s : System) (id : Nat) (index : Int) (t : Option Int) : Nat → Int → Option Int :=
  fun a j => if a = id ∧ j = index then t else s.held a j

def step (c : CanvasRange) (s : System) : Op → Option System
  | .get type id =>
    let r := getCanvasEx c s.stat type id
    some { stat := r.2, held := if r.1 < 0 then s.held else s.hold id r.1 (some type) }
  | .free index id =>
    some { stat := freeCanvasEx c s.stat index id, held := s.hold id index none }

/-- The table says what the instances hold. -/
structure Booked (c : CanvasRange) (s : System) : Prop where
  counted : ∀ i < c.maxSize, (s.stat i).canvasUsedFlag = (bits (s.stat i).id).card
  typed : ∀ i < c.maxSize, (s.stat i).type = 0 ↔ (s.stat i).id = 0#32
  users : ∀ i < c.maxSize, ∀ a, (s.stat i).id.getLsbD a = (s.held a (c.index i)).isSome
  types : ∀ i < c.maxSize, ∀ a t, s.held a (c.index i) = some t → (s.stat i).type = t
  places : ∀ a index, (s.held a index).isSome = true → ∃ i < c.maxSize, c.index i = index

section Steps

variable {c : CanvasRange} {s : System} {id : Nat}

theorem booked_start : Booked c {} :=
  ⟨fun _ _ => by simp, fun _ _ => ⟨fun _ => rfl, fun _ => rfl⟩,
    fun _ _ _ => by simp, nofun, nofun⟩

/-- An entry gets a user. -/
theorem Booked.obtain_entry {i : Nat} {type : Int} {e : CanvasStatus} (h : Booked c s)
    (hi : i < c.maxSize) (hcount : e.canvasUsedFlag = (bits e.id).card)
    (htype : e.type = type) (hne : type ≠ 0)
    (hid : ∀ a, e.id.getLsbD a = ((s.stat i).id.getLsbD a || decide (a = id)))
    (hold : ∀ a, a ≠ id → (s.stat i).id.getLsbD a = true → (s.stat i).type = type) :
    Booked c { stat := Function.update s.stat i e, held := s.hold id (c.index i) (some type) } := by
  have hself (a : Nat) : s.hold id (c.index i) (some type) a (c.index i) =
      if a = id then some type else s.held a (c.index i) := by
    unfold System.hold
    simp only [and_true]
  have hother (a j : Nat) (hj : j < c.maxSize) (hji : j ≠ i) :
      s.hold id (c.index i) (some type) a (c.index j) = s.held a (c.index j) :=
    if_neg fun hc => hji (c.index_injective hj hi hc.2)
  refine ⟨fun j hj => ?_, fun j hj => ?_, fun j hj a => ?_, fun j hj a t ht => ?_,
    fun a index ha => ?_⟩
  · dsimp only
    by_cases hji : j = i
    · rw [hji, Function.update_self]
      exact hcount
    · rw [Function.update_of_ne hji]
      exact h.counted j hj
  · dsimp only
    by_cases hji : j = i
    · rw [hji, Function.update_self, htype]
      apply iff_of_false hne
      intro hz
      have hbit := hid id
      rw [hz, decide_eq_true rfl, Bool.or_true] at hbit
      exact absurd hbit (by simp)
    · rw [Function.update_of_ne hji]
      exact h.typed j hj
  · dsimp only
    by_cases hji : j = i
    · rw [hji, Function.update_self, hid, hself, h.users i hi]
      by_cases ha : a = id <;> simp [ha]
    · rw [Function.update_of_ne hji, hother a j hj hji]
      exact h.users j hj a
  · dsimp only at ht ⊢
    by_cases hji : j = i
    · rw [hji, hself] at ht
      rw [hji, Function.update_self, htype]
      split at ht
      · exact Option.some.inj ht
      · next ha =>
        have hbit := h.users i hi a
        rw [ht] at hbit
        rw [← h.types i hi a t ht]
        exact (hold a ha hbit).symm
    · rw [hother a j hj hji] at ht
      rw [Function.update_of_ne hji]
      exact h.types j hj a t ht
  · dsimp only [System.hold] at ha
    split at ha
    · next hc => exact ⟨i, hi, hc.2.symm⟩
    · exact h.places a index ha

/-- `get_canvas_ex` keeps the books. -/
theorem Booked.get {type : Int} (h : Booked c s) (hne : type ≠ 0) (hid : id < 31) {t : System}
    (ht : step c s (.get type id) = some t) : Booked c t := by
  have hbit : id < 32 := by omega
  rw [← Option.some.inj ht]
  rcases getCanvasEx_cases c s.stat type hbit with
    hfail | ⟨i, hi, -, ⟨htype, hclear, hget⟩ | ⟨hfree, hget⟩⟩
  · rw [hfail, if_pos (show (-1 : Int) < 0 by decide)]
    exact h
  · rw [hget, if_neg (not_lt.mpr (c.index_nonneg i))]
    refine h.obtain_entry hi ?_ htype hne (fun a => ?_) fun a _ _ => htype
    · rw [card_bits_set _ hbit hclear, h.counted i hi]
      exact (Nat.cast_succ _).symm
    · rw [BitVec.getLsbD_or]
      exact congrArg _ (getLsbD_shift hbit)
  · have hempty : (s.stat i).id = 0#32 := (h.typed i hi).mp hfree
    rw [hget, if_neg (not_lt.mpr (c.index_nonneg i))]
    refine h.obtain_entry hi ?_ rfl hne (fun a => ?_) fun a _ ha => ?_
    · dsimp only
      rw [bits_shift hbit, Finset.card_singleton]
      rfl
    · rw [hempty, BitVec.getLsbD_zero, Bool.false_or]
      exact getLsbD_shift hbit
    · rw [hempty] at ha
      exact absurd ha (by simp)

/-- An entry without a user it had. -/
theorem leave_spec {e : CanvasStatus} (hid : id < 32) (hcount : e.canvasUsedFlag = (bits e.id).card)
    (htype : e.type = 0 ↔ e.id = 0#32) (hbit : e.id.getLsbD id = true) :
    (e.leave id).canvasUsedFlag = (bits (e.leave id).id).card ∧
      ((e.leave id).type = 0 ↔ (e.leave id).id = 0#32) ∧
      (e.leave id).id = e.id &&& ~~~(1#32 <<< id) ∧
      ((e.leave id).id ≠ 0#32 → (e.leave id).type = e.type) := by
  have hcard := card_bits_clear e.id hid hbit
  have hflag : e.canvasUsedFlag - 1 = (bits (e.id &&& ~~~(1#32 <<< id))).card := by omega
  unfold CanvasStatus.leave
  dsimp only
  split
  · next hz =>
    have hnone : e.id &&& ~~~(1#32 <<< id) = 0#32 := by
      rw [← bits_eq_empty, ← Finset.card_eq_zero]
      omega
    refine ⟨?_, iff_of_true rfl rfl, hnone.symm, fun hn => absurd rfl hn⟩
    rw [bits_zero]
    exact hz
  · next hnz =>
    refine ⟨hflag, ?_, rfl, fun _ => rfl⟩
    have hid0 : e.id ≠ 0#32 := fun h0 => by
      rw [h0] at hbit
      exact absurd hbit (by simp)
    refine iff_of_false (fun h0 => hid0 (htype.mp h0)) fun h0 => hnz ?_
    rw [hflag, Int.natCast_eq_zero, Finset.card_eq_zero, bits_eq_empty]
    exact h0

theorem Booked.leave_entry {i : Nat} (h : Booked c s) (hid : id < 32) (hi : i < c.maxSize)
    (hbit : (s.stat i).id.getLsbD id = true) :
    Booked c { stat := Function.update s.stat i ((s.stat i).leave id)
               held := s.hold id (c.index i) none } := by
  obtain ⟨hcount, htype, hmask, hsame⟩ :=
    leave_spec hid (h.counted i hi) (h.typed i hi) hbit
  have hself (a : Nat) : s.hold id (c.index i) none a (c.index i) =
      if a = id then none else s.held a (c.index i) := by
    unfold System.hold
    simp only [and_true]
  have hother (a j : Nat) (hj : j < c.maxSize) (hji : j ≠ i) :
      s.hold id (c.index i) none a (c.index j) = s.held a (c.index j) :=
    if_neg fun hc => hji (c.index_injective hj hi hc.2)
  have husers (a : Nat) : ((s.stat i).leave id).id.getLsbD a =
      (s.hold id (c.index i) none a (c.index i)).isSome := by
    rw [hself, hmask, getLsbD_clear _ hid, h.users i hi]
    by_cases ha : a = id <;> simp [ha]
  refine ⟨fun j hj => ?_, fun j hj => ?_, fun j hj a => ?_, fun j hj a t ht => ?_,
    fun a index ha => ?_⟩
  · dsimp only
    by_cases hji : j = i
    · rw [hji, Function.update_self]
      exact hcount
    · rw [Function.update_of_ne hji]
      exact h.counted j hj
  · dsimp only
    by_cases hji : j = i
    · rw [hji, Function.update_self]
      exact htype
    · rw [Function.update_of_ne hji]
      exact h.typed j hj
  · dsimp only
    by_cases hji : j = i
    · rw [hji, Function.update_self]
      exact husers a
    · rw [Function.update_of_ne hji, hother a j hj hji]
      exact h.users j hj a
  · dsimp only at ht ⊢
    by_cases hji : j = i
    · rw [hji] at ht
      have hset := husers a
      rw [ht] at hset
      rw [hji, Function.update_self, hsame fun h0 => by
        rw [h0] at hset
        exact absurd hset (by simp)]
      rw [hself] at ht
      split at ht
      · exact absurd ht nofun
      · exact h.types i hi a t ht
    · rw [hother a j hj hji] at ht
      rw [Function.update_of_ne hji]
      exact h.types j hj a t ht
  · dsimp only [System.hold] at ha
    split at ha
    · exact absurd ha (by simp)
    · exact h.places a index ha

/-- A free that finds no user of the entry concerns nothing that is held. -/
theorem Booked.not_held {index : Int} (h : Booked c s) (hid : id < 32)
    (hno : ∀ i, c.offset index = some i → ¬ ((s.stat i).canvasUsedFlag > 0 ∧
      (s.stat i).id &&& 1#32 <<< id ≠ 0#32)) : s.held id index = none := by
  by_contra hsome
  obtain ⟨i, hi, hindex⟩ := h.places id index (Option.isSome_iff_ne_none.mpr hsome)
  have hbit : (s.stat i).id.getLsbD id = true := by
    rw [h.users i hi, hindex]
    exact Option.isSome_iff_ne_none.mpr hsome
  refine hno i (hindex ▸ c.offset_index hi) ⟨?_, fun hz => ?_⟩
  · rw [h.counted i hi]
    have hpos := Finset.card_pos.mpr ⟨id, (mem_bits _).mpr hbit⟩
    omega
  · have hclear := (and_shift_eq_zero _ hid).mp hz
    rw [hbit] at hclear
    exact absurd hclear (by decide)

/-- `free_canvas_ex` keeps the books. -/
theorem Booked.free {index : Int} (h : Booked c s) (hid : id < 31) {t : System}
    (ht : step c s (.free index id) = some t) : Booked c t := by
  have hbit : id < 32 := by omega
  have hnothing (hno : ∀ i, c.offset index = some i → ¬ ((s.stat i).canvasUsedFlag > 0 ∧
      (s.stat i).id &&& 1#32 <<< id ≠ 0#32)) :
      Booked c { stat := s.stat, held := s.hold id index none } := by
    have hsame : s.hold id index none = s.held := by
      funext a j
      unfold System.hold
      split
      · next hc => rw [hc.1, hc.2, h.not_held hbit hno]
      · rfl
    rw [hsame]
    exact h
  rw [← Option.some.inj ht]
  unfold freeCanvasEx
  split
  · next hoff => exact hnothing fun i hi => absurd (hoff.symm.trans hi) nofun
  · next i hoff =>
    obtain ⟨hi, hindex⟩ := c.index_offset hoff
    split
    · next huser =>
      rw [← hindex]
      apply h.leave_entry hbit hi
      by_contra hclear
      exact huser.2 ((and_shift_eq_zero _ hbit).mpr (Bool.not_eq_true _ ▸ hclear))
    · next huser =>
      apply hnothing
      intro j hj
      rw [← Option.some.inj (hoff.symm.trans hj)]
      exact huser

theorem booked_step {op : Op} (hop : op.Valid) (h : Booked c s) {t : System}
    (ht : step c s op = some t) : Booked c t := by
  cases op with
  | get type id => exact h.get hop.1 hop.2 ht
  | free index id => exact h.free hop ht

/-- A free of an entry leaves the others alone, and this one unless the instance uses it. -/
theorem free_changes {index : Int} {i : Nat} (h : Booked c s) (hid : id < 31)
    (hi : i < c.maxSize) : freeCanvasEx c s.stat index id i ≠ s.stat i ↔
      c.index i = index ∧ (s.held id index).isSome = true := by
  have hbit : id < 32 := by omega
  have huser (hindex : c.index i = index) : (s.held id index).isSome = true ↔
      (s.stat i).canvasUsedFlag > 0 ∧ (s.stat i).id &&& 1#32 <<< id ≠ 0#32 := by
    rw [← hindex, ← h.users i hi, ne_eq, and_shift_eq_zero _ hbit, Bool.not_eq_false, iff_and_self]
    intro hset
    rw [h.counted i hi]
    have hpos := Finset.card_pos.mpr ⟨id, (mem_bits _).mpr hset⟩
    omega
  by_cases hindex : c.index i = index
  · rw [huser hindex, and_iff_right hindex]
    have hoff : c.offset index = some i := hindex ▸ c.offset_index hi
    unfold freeCanvasEx
    rw [hoff]
    dsimp only
    split
    · next hc =>
      refine iff_of_true (fun hsame => ?_) hc
      rw [Function.update_self] at hsame
      have hset : (s.stat i).id.getLsbD id = true := by
        by_contra hclear
        exact hc.2 ((and_shift_eq_zero _ hbit).mpr (Bool.not_eq_true _ ▸ hclear))
      have hmask := (leave_spec hbit (h.counted i hi) (h.typed i hi) hset).2.2.1
      have hgone := getLsbD_clear (j := id) (s.stat i).id hbit
      rw [← hmask, hsame, hset] at hgone
      exact absurd hgone (by simp)
    · next hc => exact iff_of_false (fun hn => hn rfl) hc
  · refine iff_of_false (fun hn => hn ?_) fun hn => hindex hn.1
    unfold freeCanvasEx
    cases hoff : c.offset index with
    | none => rfl
    | some j =>
      have hne : i ≠ j := fun hij => hindex (hij ▸ (c.index_offset hoff).2)
      dsimp only
      split
      · exact Function.update_of_ne hne _ _
      · rfl

end Steps

/-! ## Every run -/

/-- The state of the table between two calls, and what the next call may do. -/
structure CanvasesOk (c : CanvasRange) (s : System) : Prop where
  /-- `canvas_used_flag` counts the users of an entry. -/
  counted : ∀ i < c.maxSize, (s.stat i).canvasUsedFlag = (bits (s.stat i).id).card
  /-- An entry has a type iff it has a user, and its users are the instances that hold its index. -/
  typed : ∀ i < c.maxSize, (s.stat i).type = 0 ↔ bits (s.stat i).id = ∅
  users : ∀ i < c.maxSize, ∀ a, a ∈ bits (s.stat i).id ↔ (s.held a (c.index i)).isSome = true
  /-- Two instances hold an index with the same type only. -/
  shared : ∀ a b index t t', s.held a index = some t → s.held b index = some t' → t = t'
  /-- The next index obtained is not held by the instance, and not one of rdma. -/
  obtained : ∀ type id index, type ≠ 0 → id < 31 → (getCanvasEx c s.stat type id).1 = index →
    index ≠ -1 → s.held id index = none ∧ ¬ (0x10 ≤ index ∧ index ≤ 0x15)
  /-- A free concerns the entry of the index obtained, and no other. -/
  freed : ∀ index id, id < 31 → ∀ i < c.maxSize, freeCanvasEx c s.stat index id i ≠ s.stat i ↔
    c.index i = index ∧ (s.held id index).isSome = true

theorem Booked.ok {c : CanvasRange} {s : System} (h : Booked c s) : CanvasesOk c s := by
  refine ⟨h.counted, fun i hi => ?_, fun i hi a => ?_, fun a b index t t' ha hb => ?_,
    fun type id index hne hid hget hindex => ?_, fun index id hid i hi => free_changes h hid hi⟩
  · rw [bits_eq_empty]
    exact h.typed i hi
  · rw [mem_bits, h.users i hi]
  · obtain ⟨i, hi, rfl⟩ := h.places a index (ha ▸ rfl)
    exact (h.types i hi a t ha).symm.trans (h.types i hi b t' hb)
  · have hbit : id < 32 := by omega
    rcases getCanvasEx_cases c s.stat type hbit with
      hfail | ⟨i, hi, hrdma, hcase⟩
    · rw [hfail] at hget
      exact absurd hget.symm hindex
    · have hclear : (s.stat i).id.getLsbD id = false := by
        rcases hcase with ⟨-, hclear, -⟩ | ⟨hfree, -⟩
        · exact hclear
        · rw [(h.typed i hi).mp hfree]
          exact BitVec.getLsbD_zero
      have hindex : c.index i = index := by
        rcases hcase with ⟨-, -, hc⟩ | ⟨-, hc⟩
        · exact (congrArg Prod.fst hc).symm.trans hget
        · exact (congrArg Prod.fst hc).symm.trans hget
      rw [← hindex]
      refine ⟨?_, c.index_not_rdma hrdma⟩
      rw [h.users i hi] at hclear
      exact Option.not_isSome_iff_eq_none.mp (by rw [hclear]; decide)

/-- In every run of calls the canvas table is in order. -/
theorem canvases_ok (c : CanvasRange) (ops : List Op) (hvalid : ∀ op ∈ ops, op.Valid) :
    Lib.Run.Always (step c) (CanvasesOk c) {} ops :=
  (Lib.Run.always_of_domain (P := Booked c) (fun _ _ _ h hop ht => booked_step hop h ht) hvalid
    booked_start).imp fun _ h => h.ok

/-- Two instances share an entry, and one of them leaves it. -/
theorem canvases_ok_shared : ∃ s,
    Lib.Run.run (step ⟨0x25, 0x78, 0xbf, by decide, by decide, by decide⟩) {}
      [.get 2 0, .get 2 1, .free 0 0, .get 2 0] = some s ∧
    s.stat 0 = ⟨2, 2, 3⟩ ∧ CanvasesOk ⟨0x25, 0x78, 0xbf, by decide, by decide, by decide⟩ s := by
  refine ⟨_, rfl, by decide, Lib.Run.always_last (canvases_ok
    ⟨0x25, 0x78, 0xbf, by decide, by decide, by decide⟩
    [.get 2 0, .get 2 1, .free 0 0, .get 2 0] (by simp [Op.Valid])) rfl⟩

end MediaModules.Canvas
