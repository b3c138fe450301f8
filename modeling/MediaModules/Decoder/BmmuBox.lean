import MediaModules.Lib.Run
import MediaModules.Lib.Holdings

/-!
# The buffers of a BMMU box

A box holds one memory buffer for each index, counts the indices that hold one and adds up the sizes.
A buffer that no longer suits is released and allocated again.
-/
namespace MediaModules.BmmuBox

open Lib.Run Lib.Holdings

/-- `struct codec_mm_s`. -/
structure CodecMm where
  phyAddr : Nat := 0
  pageCount : Nat := 0
  bufferSize : Nat := 0
  insId : Int := 0
  insBufferId : Int := 0
deriving DecidableEq, Repr

/-- `struct mm_list_expand`. -/
structure MmListExpand where
  index : Int
  mm : Option Nat
deriving DecidableEq, Repr

/-- `struct decoder_bmmu_box`. Buffers are named by numbers. -/
structure DecoderBmmuBox where
  maxMmNum : Int := 0
  expNum : Int := 0
  channelId : Int := 0
  totalSize : Int := 0
  boxRefCnt : Int := 0
  changeSizeOnNeedSmaller : Bool := false
  align2n : Int := 0
  memFlags : Int := 0
  expMmList : List MmListExpand := []
  mmList : Int → Option Nat := fun _ => none

/-- The box, the buffers, and those obtained from `codec_mm_alloc` and not yet released. -/
structure State where
  box : DecoderBmmuBox := {}
  mm : Nat → CodecMm := fun _ => {}
  next : Nat := 0
  live : Finset Nat := ∅

def PAGE_SIZE : Nat := 4096

/-- 2^64, the values of an `unsigned long`. -/
def ULONG : Nat := 18446744073709551616

/-- 2^31: an `int` is below. -/
def INT : Int := 2147483648

def ENOMEM : Int := 12

/-- The value an `int` takes. -/
def wrap32 (x : Int) : Int := (x + INT) % (2 * INT) - INT

namespace DecoderBmmuBox

variable (box : DecoderBmmuBox)

/-- The loop of `decoder_bmmu_box_get_mm_from_idx` over the expand list. -/
def findExpand (idx : Int) : List MmListExpand → Option Nat
  | [] => none
  | ent :: list => if ent.index = idx then ent.mm else findExpand idx list

/-- `decoder_bmmu_box_get_mm_from_idx`. -/
def getMmFromIdx (idx : Int) : Option Nat :=
  if idx < 0 then none
  else if idx < box.maxMmNum then box.mmList idx
  else findExpand idx box.expMmList

/-- The loop of `decoder_bmmu_box_set_mm_from_idx`: the list with the entry of `idx` set, if it has
one. -/
def setExpand (idx : Int) (mm : Option Nat) : List MmListExpand → Option (List MmListExpand)
  | [] => none
  | ent :: list =>
    if ent.index = idx then some ({ ent with mm } :: list)
    else (setExpand idx mm list).map (ent :: ·)

/-- `decoder_bmmu_box_set_mm_from_idx`. -/
def setMmFromIdx (idx : Int) (mm : Option Nat) : DecoderBmmuBox :=
  if idx < 0 then box
  else if idx < box.maxMmNum then { box with mmList := Function.update box.mmList idx mm }
  else match setExpand idx mm box.expMmList with
    | some list => { box with expMmList := list }
    | none => { box with expNum := box.expNum + 1, expMmList := ⟨idx, mm⟩ :: box.expMmList }

/-- Why a buffer that is not kept does not suit, in `decoder_bmmu_box_alloc_idx`. -/
def invalid (mm : CodecMm) (size align : Int) : Nat :=
  if mm.pageCount * PAGE_SIZE % ULONG < (size % ULONG).toNat then 1
  else if box.changeSizeOnNeedSmaller ∧ (mm.bufferSize : Int) > wrap32 (2 * size) then 2
  else if mm.phyAddr &&& (2 ^ align.toNat - 1) ≠ 0 then 4
  else 0

/-- `decoder_bmmu_try_to_release_box`: whether the box is freed. -/
def tryToReleaseBox : Bool :=
  box.boxRefCnt = 0 && !((List.range box.maxMmNum.toNat).any fun i =>
    (box.getMmFromIdx i).isSome) && !box.expMmList.any fun ent => ent.mm.isSome

end DecoderBmmuBox

namespace State

variable (s : State)

/-- The buffer of an index is released and its size taken off. -/
def release (idx : Int) (b : Nat) : State :=
  { s with
    box := { s.box with
      totalSize := wrap32 (s.box.totalSize - (s.mm b).bufferSize) }.setMmFromIdx idx none
    live := s.live.erase b }

/-- The end of `decoder_bmmu_box_alloc_idx`: the index gets the buffer `codec_mm_alloc` gives. -/
def obtain (idx : Int) : Option CodecMm → Int × State
  | none => (-ENOMEM, s)
  | some mm =>
    let box := s.box.setMmFromIdx idx (some s.next)
    (0, { s with
      box := { box with
        totalSize := wrap32 (box.totalSize + mm.bufferSize)
        boxRefCnt := wrap32 (box.boxRefCnt + 1) }
      mm := Function.update s.mm s.next
        { mm with insId := s.box.channelId, insBufferId := idx }
      next := s.next + 1
      live := insert s.next s.live })

/-- `decoder_bmmu_box_alloc_idx`; `kept` is what `is_codec_mm_kept` says of the buffer the index
has, `codecMmAlloc` answers for a size, an alignment and memory flags. -/
def allocIdx (idx size aligned2n memFlags : Int) (kept : Bool)
    (codecMmAlloc : Int → Int → Int → Option CodecMm) : Int × State :=
  if idx < 0 then (-1, s)
  else
    let align := if aligned2n = -1 then s.box.align2n else aligned2n
    let memflags := if memFlags = -1 then s.box.memFlags else memFlags
    match s.box.getMmFromIdx idx with
    | none => s.obtain idx (codecMmAlloc size align memflags)
    | some b =>
      if kept ∨ s.box.invalid (s.mm b) size align ≠ 0 then
        (s.release idx b).obtain idx (codecMmAlloc size align memflags)
      else (0, s)

/-- `decoder_bmmu_box_free_idx`. -/
def freeIdx (idx : Int) : Int × State :=
  if idx < 0 then (-1, s)
  else match s.box.getMmFromIdx idx with
    | none => (0, s)
    | some b =>
      let t := s.release idx b
      (0, { t with box := { t.box with boxRefCnt := wrap32 (t.box.boxRefCnt - 1) } })

end State

inductive Op
  | allocIdx (idx size aligned2n memFlags : Int) (kept : Bool)
    (codecMmAlloc : Int → Int → Int → Option CodecMm)
  | freeIdx (idx : Int)

/-- One call. -/
def step (s : State) : Op → Option State
  | .allocIdx idx size aligned2n memFlags kept codecMmAlloc =>
    some (s.allocIdx idx size aligned2n memFlags kept codecMmAlloc).2
  | .freeIdx idx => some (s.freeIdx idx).2

/-- The box `decoder_bmmu_box_alloc_box` returns. -/
def start (maxMmNum channelId align2n memFlags : Int) : State :=
  { box := { maxMmNum, channelId, align2n, memFlags } }

/-! ## Indices -/

section Indices

variable {box : DecoderBmmuBox} {idx : Int} {mm : Option Nat} {list list' : List MmListExpand}

theorem findExpand_setExpand (h : DecoderBmmuBox.setExpand idx mm list = some list') (i : Int) :
    DecoderBmmuBox.findExpand i list' =
      if i = idx then mm else DecoderBmmuBox.findExpand i list := by
  induction list generalizing list' with
  | nil => exact absurd h nofun
  | cons ent list ih =>
    simp only [DecoderBmmuBox.setExpand] at h
    split at h
    · next hent =>
      rw [← Option.some.inj h]
      simp only [DecoderBmmuBox.findExpand, hent, eq_comm (a := idx)]
      split <;> rfl
    · next hent =>
      obtain ⟨tail, htail, rfl⟩ := Option.map_eq_some_iff.mp h
      simp only [DecoderBmmuBox.findExpand, ih htail]
      by_cases hi : ent.index = i
      · rw [if_pos hi, if_pos hi, if_neg fun hidx => hent (hi.trans hidx)]
      · rw [if_neg hi, if_neg hi]

theorem setExpand_index (h : DecoderBmmuBox.setExpand idx mm list = some list') :
    list'.map MmListExpand.index = list.map MmListExpand.index := by
  induction list generalizing list' with
  | nil => exact absurd h nofun
  | cons ent list ih =>
    simp only [DecoderBmmuBox.setExpand] at h
    split at h
    · rw [← Option.some.inj h]
      rfl
    · obtain ⟨tail, htail, rfl⟩ := Option.map_eq_some_iff.mp h
      exact congrArg (ent.index :: ·) (ih htail)

theorem setExpand_none (h : DecoderBmmuBox.setExpand idx mm list = none) :
    idx ∉ list.map MmListExpand.index := by
  induction list with
  | nil => exact List.not_mem_nil
  | cons ent list ih =>
    simp only [DecoderBmmuBox.setExpand] at h
    split at h
    · exact absurd h nofun
    · next hent =>
      refine fun hmem => (List.mem_cons.mp hmem).elim (fun h' => hent h'.symm) ?_
      exact ih (Option.map_eq_none_iff.mp h)

/-- Setting the buffer of an index changes what that index has, and nothing else. -/
theorem getMmFromIdx_set (hidx : 0 ≤ idx) :
    (box.setMmFromIdx idx mm).getMmFromIdx = Function.update box.getMmFromIdx idx mm := by
  funext i
  unfold DecoderBmmuBox.setMmFromIdx
  rw [if_neg (Int.not_lt.mpr hidx), Function.update_apply]
  split
  · next hmax =>
    unfold DecoderBmmuBox.getMmFromIdx
    dsimp only
    by_cases hi : i = idx
    · rw [if_pos hi, hi, if_neg (Int.not_lt.mpr hidx), if_pos hmax, Function.update_self]
    · rw [if_neg hi, Function.update_of_ne hi]
  · next hmax =>
    have hlist (list : List MmListExpand)
        (hfind : DecoderBmmuBox.findExpand i list =
          if i = idx then mm else DecoderBmmuBox.findExpand i box.expMmList) :
        (if i < 0 then none else if i < box.maxMmNum then box.mmList i
          else DecoderBmmuBox.findExpand i list) =
        if i = idx then mm else box.getMmFromIdx i := by
      unfold DecoderBmmuBox.getMmFromIdx
      rw [hfind]
      by_cases hi : i = idx
      · rw [hi, if_neg (Int.not_lt.mpr hidx), if_neg hmax, if_pos rfl, if_pos rfl]
      · rw [if_neg hi, if_neg hi]
    cases hset : DecoderBmmuBox.setExpand idx mm box.expMmList with
    | some list => exact hlist list (findExpand_setExpand hset i)
    | none =>
      apply hlist _
      simp only [DecoderBmmuBox.findExpand, eq_comm (a := idx)]

/-- What setting a buffer leaves alone. -/
theorem setMmFromIdx_fields (box : DecoderBmmuBox) (idx : Int) (mm : Option Nat) :
    (box.setMmFromIdx idx mm).maxMmNum = box.maxMmNum ∧
      (box.setMmFromIdx idx mm).totalSize = box.totalSize ∧
      (box.setMmFromIdx idx mm).boxRefCnt = box.boxRefCnt := by
  unfold DecoderBmmuBox.setMmFromIdx
  split
  · exact ⟨rfl, rfl, rfl⟩
  · split
    · exact ⟨rfl, rfl, rfl⟩
    · split <;> exact ⟨rfl, rfl, rfl⟩

/-- The expand list has one entry an index, for indices beyond the table. -/
structure Expanded (maxMmNum : Int) (list : List MmListExpand) : Prop where
  distinct : (list.map MmListExpand.index).Nodup
  beyond : ∀ idx ∈ list.map MmListExpand.index, 0 ≤ idx ∧ maxMmNum ≤ idx

theorem Expanded.set (box : DecoderBmmuBox) (h : Expanded box.maxMmNum box.expMmList) :
    Expanded (box.setMmFromIdx idx mm).maxMmNum (box.setMmFromIdx idx mm).expMmList := by
  rw [(setMmFromIdx_fields box idx mm).1]
  unfold DecoderBmmuBox.setMmFromIdx
  split
  · exact h
  · next hidx =>
    split
    · exact h
    · next hmax =>
      cases hset : DecoderBmmuBox.setExpand idx mm box.expMmList with
      | some list =>
        have hindex := setExpand_index hset
        exact ⟨hindex ▸ h.distinct, hindex ▸ h.beyond⟩
      | none =>
        refine ⟨List.nodup_cons.mpr ⟨setExpand_none hset, h.distinct⟩, fun i hi => ?_⟩
        rcases List.mem_cons.mp hi with rfl | hi
        · exact ⟨Int.not_lt.mp hidx, Int.not_lt.mp hmax⟩
        · exact h.beyond i hi

theorem findExpand_of_mem (h : (list.map MmListExpand.index).Nodup) {ent : MmListExpand}
    (hent : ent ∈ list) : DecoderBmmuBox.findExpand ent.index list = ent.mm := by
  induction list with
  | nil => exact absurd hent List.not_mem_nil
  | cons e list ih =>
    obtain ⟨hnot, hnodup⟩ := List.nodup_cons.mp h
    rcases List.mem_cons.mp hent with rfl | hmem
    · exact if_pos rfl
    · have hne : e.index ≠ ent.index := fun heq => hnot (heq ▸ List.mem_map_of_mem hmem)
      exact (if_neg hne).trans (ih hnodup hmem)

/-- A box whose indices have no buffer, and whose count is zero, is freed. -/
theorem tryToReleaseBox_of_none (h : Expanded box.maxMmNum box.expMmList)
    (hcnt : box.boxRefCnt = 0) (hnone : ∀ idx, box.getMmFromIdx idx = none) :
    box.tryToReleaseBox = true := by
  have htable : ((List.range box.maxMmNum.toNat).any fun i => (box.getMmFromIdx i).isSome) =
      false := by
    apply List.any_eq_false.mpr
    intro i _
    rw [hnone]
    exact Bool.false_ne_true
  have hexpand : (box.expMmList.any fun ent => ent.mm.isSome) = false := by
    apply List.any_eq_false.mpr
    intro ent hent
    obtain ⟨hpos, hmax⟩ := h.beyond ent.index (List.mem_map_of_mem hent)
    have hget := hnone ent.index
    unfold DecoderBmmuBox.getMmFromIdx at hget
    rw [if_neg (Int.not_lt.mpr hpos), if_neg (Int.not_lt.mpr hmax),
      findExpand_of_mem h.distinct hent] at hget
    rw [hget]
    exact Bool.false_ne_true
  unfold DecoderBmmuBox.tryToReleaseBox
  rw [htable, hexpand, decide_eq_true hcnt]
  rfl

end Indices

/-! ## The books -/

/-- The two counters are right, every buffer obtained and not released is held by one index, and a
box without buffers can be released. -/
structure Accounted (s : State) : Prop where
  counted : Counted s.box.getMmFromIdx (fun b => (s.mm b).bufferSize)
    s.box.boxRefCnt s.box.totalSize
  held : ∀ b ∈ s.live, ∃! idx, s.box.getMmFromIdx idx = some b
  released : (∀ idx, s.box.getMmFromIdx idx = none) →
    s.box.boxRefCnt = 0 ∧ s.box.tryToReleaseBox = true

/-- The call does not allocate again for an index that has a buffer, and the two counters stay
below 2^31. -/
def Fits (s : State) : Op → Prop
  | .allocIdx idx size aligned2n memFlags kept codecMmAlloc =>
    let align := if aligned2n = -1 then s.box.align2n else aligned2n
    let memflags := if memFlags = -1 then s.box.memFlags else memFlags
    0 ≤ idx → match s.box.getMmFromIdx idx with
      | some b => kept = false ∧ s.box.invalid (s.mm b) size align = 0
      | none => ∀ mm, codecMmAlloc size align memflags = some mm →
        s.box.boxRefCnt + 1 < INT ∧ s.box.totalSize + mm.bufferSize < INT
  | .freeIdx _ => True

theorem wrap32_lt (x : Int) : wrap32 x < INT := by
  unfold wrap32 INT
  omega

theorem wrap32_of_range {x : Int} (h0 : -INT ≤ x) (hlt : x < INT) : wrap32 x = x := by
  unfold wrap32 INT at *
  omega

theorem wrap32_succ_ne (x : Int) : wrap32 (x + 1) ≠ x := by
  unfold wrap32 INT
  omega

/-- The books of the box with the right values of the two counters. -/
structure Books (s : State) (count total : Int) : Prop where
  counted : Counted s.box.getMmFromIdx (fun b => (s.mm b).bufferSize) count total
  owns : Owns s.box.getMmFromIdx s.live
  fresh : ∀ b ∈ s.live, b < s.next
  expanded : Expanded s.box.maxMmNum s.box.expMmList

section Steps

variable {s t : State} {count total idx : Int} {b : Nat}

/-- Fields of the box the books do not speak of. -/
theorem Books.of_eq (h : Books s count total) (hget : t.box.getMmFromIdx = s.box.getMmFromIdx)
    (hmm : t.mm = s.mm) (hlive : t.live = s.live) (hnext : t.next = s.next)
    (hmax : t.box.maxMmNum = s.box.maxMmNum) (hexp : t.box.expMmList = s.box.expMmList) :
    Books t count total := by
  refine ⟨?_, ?_, ?_, ?_⟩
  · rw [hget, hmm]
    exact h.counted
  · rw [hget, hlive]
    exact h.owns
  · rw [hlive, hnext]
    exact h.fresh
  · rw [hmax, hexp]
    exact h.expanded

theorem Books.release (h : Books s count total) (hidx : 0 ≤ idx)
    (hb : s.box.getMmFromIdx idx = some b) :
    Books (s.release idx b) (count - 1) (total - (s.mm b).bufferSize) := by
  have hget : (s.release idx b).box.getMmFromIdx = Function.update s.box.getMmFromIdx idx none :=
    getMmFromIdx_set hidx
  refine ⟨?_, ?_, fun x hx => h.fresh x (Finset.mem_of_mem_erase hx), ?_⟩
  · rw [hget]
    exact h.counted.drop hb
  · rw [hget]
    exact h.owns.drop hb
  · exact Expanded.set { s.box with totalSize := _ } h.expanded

theorem release_counters (s : State) (idx : Int) (b : Nat) :
    (s.release idx b).box.boxRefCnt = s.box.boxRefCnt ∧
      (s.release idx b).box.totalSize = wrap32 (s.box.totalSize - (s.mm b).bufferSize) :=
  ⟨(setMmFromIdx_fields _ _ _).2.2, (setMmFromIdx_fields _ _ _).2.1⟩

/-- An index without a buffer gets a new one. -/
theorem Books.obtain (h : Books s count total) (hidx : 0 ≤ idx)
    (hnone : s.box.getMmFromIdx idx = none) (mm : CodecMm) :
    Books (s.obtain idx (some mm)).2 (count + 1) (total + mm.bufferSize) := by
  have hget : (s.obtain idx (some mm)).2.box.getMmFromIdx =
      Function.update s.box.getMmFromIdx idx (some s.next) := getMmFromIdx_set hidx
  have hnew : s.next ∉ s.live := fun hmem => Nat.lt_irrefl _ (h.fresh _ hmem)
  refine ⟨?_, ?_, fun x hx => ?_, ?_⟩
  · -- the new buffer is held by no index yet
    have hold : Counted s.box.getMmFromIdx
        (fun b => ((s.obtain idx (some mm)).2.mm b).bufferSize) count total := by
      apply h.counted.congr
      intro i b hi
      have hne : b ≠ s.next := fun heq => hnew (heq ▸ h.owns.live_of_held i b hi)
      exact congrArg CodecMm.bufferSize (Function.update_of_ne hne ..)
    have hsize : ((s.obtain idx (some mm)).2.mm s.next).bufferSize = mm.bufferSize := by
      show (Function.update s.mm s.next { mm with insId := _, insBufferId := idx }
        s.next).bufferSize = mm.bufferSize
      rw [Function.update_self]
    have htake := hold.take (b := s.next) hnone
    rw [hsize] at htake
    rw [hget]
    exact htake
  · rw [hget]
    exact h.owns.take hnone hnew
  · rcases Finset.mem_insert.mp hx with rfl | hx
    · exact Nat.lt_succ_self _
    · exact Nat.lt_succ_of_lt (h.fresh x hx)
  · exact Expanded.set s.box h.expanded

theorem obtain_counters (s : State) (idx : Int) (mm : CodecMm) :
    (s.obtain idx (some mm)).2.box.boxRefCnt = wrap32 (s.box.boxRefCnt + 1) ∧
      (s.obtain idx (some mm)).2.box.totalSize = wrap32 (s.box.totalSize + mm.bufferSize) := by
  obtain ⟨-, htotal, hcnt⟩ := setMmFromIdx_fields s.box idx (some s.next)
  unfold State.obtain
  dsimp only
  rw [htotal, hcnt]
  exact ⟨rfl, rfl⟩

/-- The counters say what the books say. -/
structure Booked (s : State) : Prop where
  books : Books s s.box.boxRefCnt s.box.totalSize
  count_lt : s.box.boxRefCnt < INT
  total_lt : s.box.totalSize < INT

theorem Booked.accounted (h : Booked s) : Accounted s := by
  refine ⟨h.books.counted, h.books.owns.once, fun hnone => ?_⟩
  have hzero := (h.books.counted.zero hnone).1
  exact ⟨hzero, tryToReleaseBox_of_none h.books.expanded hzero hnone⟩

/-- Whatever the books say, the counters have to say it too. -/
theorem Books.eq_of_accounted (h : Books s count total) (ha : Accounted s) :
    count = s.box.boxRefCnt ∧ total = s.box.totalSize :=
  h.counted.unique ha.counted

theorem Booked.freeIdx (h : Booked s) (idx : Int) : Booked (s.freeIdx idx).2 := by
  unfold State.freeIdx
  split
  · exact h
  · next hidx =>
    cases hb : s.box.getMmFromIdx idx with
    | none => exact h
    | some b =>
      have hbooks := h.books.release (Int.not_lt.mp hidx) hb
      obtain ⟨hcnt, htotal⟩ := release_counters s idx b
      obtain ⟨hc0, ht0⟩ := hbooks.counted.nonneg
      have hclt := h.count_lt
      have htlt := h.total_lt
      have hpos : -INT < 0 := by decide
      have hcnt' : wrap32 ((s.release idx b).box.boxRefCnt - 1) = s.box.boxRefCnt - 1 := by
        rw [hcnt]
        exact wrap32_of_range (by omega) (by omega)
      have htotal' : (s.release idx b).box.totalSize = s.box.totalSize - (s.mm b).bufferSize := by
        rw [htotal]
        exact wrap32_of_range (by omega) (by omega)
      refine ⟨?_, ?_, ?_⟩
      · dsimp only
        rw [hcnt', htotal']
        exact hbooks.of_eq rfl rfl rfl rfl rfl rfl
      · dsimp only
        rw [hcnt']
        omega
      · dsimp only
        rw [htotal']
        omega

/-- An index without a buffer gets one, while the counters have room. -/
theorem Booked.obtain (h : Booked s) (hidx : 0 ≤ idx) (hnone : s.box.getMmFromIdx idx = none)
    (answer : Option CodecMm) (hfit : ∀ mm, answer = some mm →
      s.box.boxRefCnt + 1 < INT ∧ s.box.totalSize + mm.bufferSize < INT) :
    Booked (s.obtain idx answer).2 := by
  cases answer with
  | none => exact h
  | some mm =>
    obtain ⟨hcfit, htfit⟩ := hfit mm rfl
    obtain ⟨hcnt, htotal⟩ := obtain_counters s idx mm
    obtain ⟨hc0, ht0⟩ := h.books.counted.nonneg
    have hpos : -INT < 0 := by decide
    rw [wrap32_of_range (by omega) hcfit] at hcnt
    rw [wrap32_of_range (by omega) htfit] at htotal
    have hbooks := h.books.obtain hidx hnone mm
    rw [← hcnt, ← htotal] at hbooks
    exact ⟨hbooks, hcnt ▸ hcfit, htotal ▸ htfit⟩

theorem booked_step (op : Op) (h : Booked s) (hok : Fits s op) (ht : step s op = some t) :
    Booked t := by
  cases op with
  | freeIdx idx => exact Option.some.inj ht ▸ h.freeIdx idx
  | allocIdx idx size aligned2n memFlags kept codecMmAlloc =>
    rw [← Option.some.inj ht]
    dsimp only [Fits] at hok
    dsimp only [State.allocIdx]
    split
    · exact h
    · next hidx =>
      have hidx := Int.not_lt.mp hidx
      have hok := hok hidx
      cases hb : s.box.getMmFromIdx idx with
      | none =>
        rw [hb] at hok
        exact h.obtain hidx hb _ hok
      | some b =>
        rw [hb] at hok
        dsimp only at hok ⊢
        rw [if_neg (by simp [hok.1, hok.2])]
        exact h

/-- An index whose buffer was released in the middle of a call is counted once too often. -/
theorem Booked.not_accounted_of_release (h : Booked s) (hidx : 0 ≤ idx)
    (hb : s.box.getMmFromIdx idx = some b) (answer : Option CodecMm) :
    ¬ Accounted ((s.release idx b).obtain idx answer).2 := by
  intro ha
  have hbooks := h.books.release hidx hb
  obtain ⟨hcnt, -⟩ := release_counters s idx b
  cases answer with
  | none =>
    have heq := (hbooks.eq_of_accounted ha).1
    rw [hcnt] at heq
    omega
  | some mm =>
    have hnone : (s.release idx b).box.getMmFromIdx idx = none := by
      rw [show (s.release idx b).box.getMmFromIdx =
        Function.update s.box.getMmFromIdx idx none from getMmFromIdx_set hidx]
      exact Function.update_self ..
    have heq := ((hbooks.obtain hidx hnone mm).eq_of_accounted ha).1
    rw [(obtain_counters (s.release idx b) idx mm).1, hcnt, Int.sub_add_cancel] at heq
    exact wrap32_succ_ne _ heq.symm

/-- A call that allocates again, or lets a counter run over, leaves wrong books. -/
theorem not_accounted_of_not_fits (op : Op) (h : Booked s) (hno : ¬ Fits s op)
    (ht : step s op = some t) : ¬ Accounted t := by
  intro ha
  cases op with
  | freeIdx idx => exact hno trivial
  | allocIdx idx size aligned2n memFlags kept codecMmAlloc =>
    apply hno
    intro hidx
    rw [← Option.some.inj ht] at ha
    dsimp only [State.allocIdx] at ha
    rw [if_neg (Int.not_lt.mpr hidx)] at ha
    cases hb : s.box.getMmFromIdx idx with
    | none =>
      intro mm hmm
      rw [hb] at ha
      dsimp only at ha
      rw [hmm] at ha
      obtain ⟨hcnt, htotal⟩ := (h.books.obtain hidx hb mm).eq_of_accounted ha
      obtain ⟨hcnt', htotal'⟩ := obtain_counters s idx mm
      rw [hcnt'] at hcnt
      rw [htotal'] at htotal
      exact ⟨hcnt ▸ wrap32_lt _, htotal ▸ wrap32_lt _⟩
    | some b =>
      by_contra hbad
      have hsuit : kept = true ∨ s.box.invalid (s.mm b) size
          (if aligned2n = -1 then s.box.align2n else aligned2n) ≠ 0 := by
        by_contra hgood
        obtain ⟨hkept, hvalid⟩ := not_or.mp hgood
        exact hbad ⟨Bool.eq_false_iff.mpr hkept, not_not.mp hvalid⟩
      rw [hb] at ha
      dsimp only at ha
      rw [if_pos hsuit] at ha
      exact h.not_accounted_of_release hidx hb _ ha

end Steps

theorem booked_start (maxMmNum channelId align2n memFlags : Int) :
    Booked (start maxMmNum channelId align2n memFlags) := by
  have hget : (start maxMmNum channelId align2n memFlags).box.getMmFromIdx = fun _ => none := by
    funext i
    unfold DecoderBmmuBox.getMmFromIdx
    split
    · rfl
    · split <;> rfl
  refine ⟨⟨?_, ?_, nofun, List.nodup_nil, nofun⟩,
    show (0 : Int) < INT by decide, show (0 : Int) < INT by decide⟩
  · rw [hget]
    exact counted_none
  · rw [hget]
    exact owns_none

/-- The books of a box are right all along exactly when no call allocates again for an index that
has a buffer, and the counters have room. -/
theorem box_accounted (maxMmNum channelId align2n memFlags : Int) (ops : List Op) :
    Always step Accounted (start maxMmNum channelId align2n memFlags) ops ↔
      Guarded step Fits (start maxMmNum channelId align2n memFlags) ops := by
  have hdefined : ∀ s op, True → ∃ s', step s op = some s' ∧ True := by
    intro s op _
    cases op <;> exact ⟨_, rfl, trivial⟩
  obtain ⟨t, hr, -⟩ :=
    run_total hdefined (s := start maxMmNum channelId align2n memFlags) trivial ops
  exact always_iff_guarded (D := fun _ => True) (fun _ h => h.accounted)
    (fun _ op _ h _ hok ht => booked_step op h hok ht)
    (fun _ op _ h _ hno ht => not_accounted_of_not_fits op h hno ht)
    (booked_start maxMmNum channelId align2n memFlags) (fun _ _ => trivial) hr

/-- A buffer of one page, then a request for two at the same index, and the index is freed: the box
counts one buffer and cannot be released. -/
theorem box_kept_for_ever : ¬ ∀ ops, Always step Accounted (start 4 0 0 0) ops := by
  intro h
  have hrun := always_last (h [
    .allocIdx 0 4096 (-1) (-1) false fun _ _ _ => some { pageCount := 1, bufferSize := 4096 },
    .allocIdx 0 8192 (-1) (-1) false fun _ _ _ => some { pageCount := 2, bufferSize := 8192 },
    .freeIdx 0]) rfl
  refine absurd (hrun.released fun idx => ?_).1 (show (1 : Int) ≠ 0 by decide)
  by_cases hidx : idx = 0
  · rw [hidx]
    rfl
  · show (if idx < 0 then none else if idx < 4 then
      (Function.update (Function.update (Function.update (Function.update (fun _ => none)
        0 (some 0)) 0 none) 0 (some 1)) 0 none : Int → Option Nat) idx else none) = none
    simp only [Function.update_of_ne hidx, ite_self]

end MediaModules.BmmuBox
