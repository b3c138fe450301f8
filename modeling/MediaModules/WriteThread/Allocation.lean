import MediaModules.WriteThread.Blocks

/-!
# Blocks carved out of one allocation or allocated one by one

A task that takes its blocks from the codec memory asks for one allocation of 128K or more and cuts it
into blocks. Below 128K it makes no allocation and cuts the blocks out of physical address zero all
the same. With the conditions that rule this and the other slips out, a run keeps the books, and
without them it does not.
-/
namespace MediaModules.WriteThread

open Lib Lib.Words Lib.Run

section conditions

variable (t : WriteTask) (env : MmEnv) (newNum blockSize : Int)

/-- The call wants the blocks from the codec memory. -/
def UsesShared : Prop :=
  t.manualWrite = false ∧ env.roomy = true ∧ (t.codecMmBuffer.findIdx? Option.isNone).isSome

instance : Decidable (UsesShared t env) := inferInstanceAs (Decidable (_ ∧ _ ∧ _))

/-- A call with codec memory asks for 128K or more, in `int` range once it is aligned, and gets every
block mapped. -/
def Fits : Prop :=
  0 < newNum → UsesShared t env → 131072 ≤ s32 (blockSize * newNum) ∧
    (env.shared = true → blockSize * newNum ≤ 2147352576 ∧
      ∀ i < newNum.toNat, env.mapped (t.bufsNum + i) = true)

instance : Decidable (Fits t env newNum blockSize) :=
  inferInstanceAs (Decidable (_ → _ → _ ∧ (_ → _ ∧ _)))

/-- The blocks get coherent memory of their own. -/
def OneByOne : Prop :=
  UsesShared t env → 131072 ≤ s32 (blockSize * newNum) ∧ env.shared = false

instance : Decidable (OneByOne t env newNum blockSize) :=
  inferInstanceAs (Decidable (_ → _ ∧ _))

/-- The number of blocks that get coherent memory before the first that does not. -/
def gotten (env : MmEnv) : Nat → Nat → Nat
  | _, 0 => 0
  | start, n + 1 => if env.coherent start then gotten env (start + 1) n + 1 else 0

/-- A call for a task without blocks that gets one or two of more blocks releases them again, and
leaves them in the task. -/
def Emptied : Prop :=
  t.bufsNum = 0 ∧ OneByOne t env newNum blockSize ∧ 0 < gotten env 0 newNum.toNat ∧
    gotten env 0 newNum.toNat < 3 ∧ (gotten env 0 newNum.toNat : Int) ≠ newNum

instance : Decidable (Emptied t env newNum blockSize) :=
  inferInstanceAs (Decidable (_ ∧ _ ∧ _ ∧ _ ∧ _))

end conditions

variable {t u : WriteTask} {env : MmEnv} {newNum blockSize totalMm : Int} {startAddr : Option Nat}
  {accepted passed : List UInt8} {left i : Nat} {b : ThreadrwBuf} {s : Session}

section source

theorem allocShared_oneByOne (h : OneByOne t env newNum blockSize) :
    allocShared t env newNum blockSize = (t, .coherent) := by
  rw [allocShared]
  cases hslot : t.codecMmBuffer.findIdx? Option.isNone with
  | none => rfl
  | some mmSlot =>
    dsimp only
    split
    · rfl
    · rename_i hmode
      rw [not_or, Bool.not_eq_true, not_not] at hmode
      obtain ⟨hbig, hno⟩ := h ⟨hmode.1, hmode.2, by rw [hslot]; rfl⟩
      rw [if_pos (show s32 (blockSize * newNum) ≥ 128 * 1024 from hbig), hno]
      rfl

theorem allocShared_small (h : UsesShared t env) (hsmall : ¬ 131072 ≤ s32 (blockSize * newNum)) :
    allocShared t env newNum blockSize = (t, .shared none 0) := by
  obtain ⟨hmode, hroomy, hslot⟩ := h
  obtain ⟨mmSlot, hslot⟩ := Option.isSome_iff_exists.mp hslot
  rw [allocShared, hslot]
  dsimp only
  rw [if_neg (by rw [hmode, hroomy]; decide),
    if_neg (show ¬ s32 (blockSize * newNum) ≥ 128 * 1024 from hsmall)]

/-- The task after the shared allocation. -/
def WriteTask.withShared (t : WriteTask) (mmSlot : Nat) (totalMm : Int) : WriteTask :=
  { t with
    codecMmBuffer := t.codecMmBuffer.set mmSlot (some t.memory.length)
    memory := t.memory.alloc totalMm.toNat
    bufferSize := s32 (t.bufferSize + totalMm) }

theorem allocShared_big (h : UsesShared t env) (hbig : 131072 ≤ s32 (blockSize * newNum))
    (hshared : env.shared = true) :
    ∃ mmSlot, allocShared t env newNum blockSize =
      (t.withShared mmSlot (align17 (s32 (blockSize * newNum))),
        .shared (some t.memory.length) (align17 (s32 (blockSize * newNum)))) := by
  obtain ⟨hmode, hroomy, hslot⟩ := h
  obtain ⟨mmSlot, hslot⟩ := Option.isSome_iff_exists.mp hslot
  refine ⟨mmSlot, ?_⟩
  rw [allocShared, hslot]
  dsimp only
  rw [if_neg (by rw [hmode, hroomy]; decide),
    if_pos (show s32 (blockSize * newNum) ≥ 128 * 1024 from hbig), if_pos hshared]
  rfl

end source

section blocks

/-- A block with memory of its own joins the free ones. -/
theorem kept_addBlock (h : Kept ⟨t, accepted, passed⟩) (hroom : t.bufsNum < t.maxBufs)
    (hv : b.vbuffer = some b.dmaHandle) (hsize : 0 < b.bufferSize ∧ b.bufferSize < 2147483648)
    (hown : t.memory.Owned b.dmaHandle b.bufferSize.toNat)
    (hapart : ∀ j < t.bufsNum, (t.buf j).dmaHandle.Apart (t.buf j).bufferSize.toNat
      b.dmaHandle b.bufferSize.toNat) : Kept ⟨t.addBlock b, accepted, passed⟩ := by
  have hold : ∀ j < t.bufsNum, (t.addBlock b).buf j = t.buf j := fun j hj =>
    Function.update_of_ne (by omega) _ _
  have hnew : (t.addBlock b).buf t.bufsNum = b := Function.update_self _ _ _
  have hcases : ∀ j, j < (t.addBlock b).bufsNum → j < t.bufsNum ∨ j = t.bufsNum := by
    intro j hj
    have hlt : j < t.bufsNum + 1 := hj
    omega
  refine ⟨⟨?_, ?_, ?_, ?_⟩, ?_, ?_, h.errors, h.defSize, hroom⟩
  · show ((t.freefifo ++ [Address.block t.bufsNum]) ++ t.datafifo).Perm
      ((List.range (t.bufsNum + 1)).map Address.block)
    rw [List.range_succ, List.map_append, List.append_assoc, List.singleton_append]
    apply List.perm_middle.trans
    apply (List.Perm.cons _ h.fifos).trans
    exact (List.perm_append_singleton _ _).symm
  · intro j hj
    rcases hcases j hj with hlt | rfl
    · dsimp only
      rw [hold j hlt]
      exact h.memory j hlt
    · dsimp only
      rw [hnew]
      exact ⟨hv, hsize.1, hown⟩
  · intro j hj k hk hne
    dsimp only
    rcases hcases j hj with hjlt | rfl
    · rcases hcases k hk with hklt | rfl
      · rw [hold j hjlt, hold k hklt]
        exact h.apart j hjlt k hklt hne
      · rw [hold j hjlt, hnew]
        exact hapart j hjlt
    · rcases hcases k hk with hklt | rfl
      · rw [hold k hklt, hnew]
        exact (hapart k hklt).symm
      · exact absurd rfl hne
  · obtain ⟨rest, hrest, hacc⟩ := h.bytes
    refine ⟨rest, ?_, hacc⟩
    rw [← hrest]
    apply pendingBytes_congr
    intro j hj
    dsimp only
    rw [hold j (data_lt h.toTaskOk hj)]
    rfl
  · intro j
    by_cases hj : j = t.bufsNum
    · dsimp only
      rw [hj, hnew]
      exact ⟨hsize.1.le, hsize.2⟩
    · have hsame : (t.addBlock b).buf j = t.buf j := Function.update_of_ne hj _ _
      dsimp only
      rw [hsame]
      exact h.sizes j
  · intro j hj
    dsimp only
    rw [hold j (data_lt h.toTaskOk hj)]
    exact h.queued j hj

theorem kept_allocated (h : Kept ⟨t, accepted, passed⟩) (n : Nat) (slots : List (Option Nat))
    (size : Int) :
    Kept ⟨{ t with codecMmBuffer := slots, memory := t.memory.alloc n, bufferSize := size },
      accepted, passed⟩ := by
  refine ⟨⟨h.fifos, ?_, h.apart, ?_⟩, h.sizes, h.queued, h.errors, h.defSize, h.room⟩
  · intro j hj
    obtain ⟨hv, hpos, hown⟩ := h.memory j hj
    exact ⟨hv, hpos, hown.alloc⟩
  · obtain ⟨rest, hrest, hacc⟩ := h.bytes
    refine ⟨rest, ?_, hacc⟩
    rw [← hrest]
    apply pendingBytes_congr
    intro j hj
    obtain ⟨bytes, hbytes, -⟩ := contents_some h hj
    obtain ⟨hv, -, -⟩ := h.memory j (data_lt h.toTaskOk hj)
    dsimp only at hbytes hv ⊢
    rw [hbytes]
    rw [contents_eq hv] at hbytes ⊢
    exact Heap.load_alloc hbytes

/-- A block that is not one of the task's may be anything of no size. -/
theorem kept_refused (h : Kept ⟨t, accepted, passed⟩) (hb : b.bufferSize = 0) :
    Kept ⟨{ t with buf := Function.update t.buf t.bufsNum b }, accepted, passed⟩ := by
  have hold : ∀ j < t.bufsNum, Function.update t.buf t.bufsNum b j = t.buf j := fun j hj =>
    Function.update_of_ne (by omega) _ _
  refine ⟨⟨h.fifos, ?_, ?_, ?_⟩, ?_, ?_, h.errors, h.defSize, h.room⟩
  · intro j hj
    dsimp only at hj ⊢
    rw [hold j hj]
    exact h.memory j hj
  · intro j hj k hk hne
    dsimp only at hj hk ⊢
    rw [hold j hj, hold k hk]
    exact h.apart j hj k hk hne
  · obtain ⟨rest, hrest, hacc⟩ := h.bytes
    refine ⟨rest, ?_, hacc⟩
    rw [← hrest]
    apply pendingBytes_congr
    intro j hj
    dsimp only
    rw [hold j (data_lt h.toTaskOk hj)]
    rfl
  · intro j
    by_cases hj : j = t.bufsNum
    · dsimp only
      rw [hj, Function.update_self, hb]
      decide
    · dsimp only
      rw [Function.update_of_ne hj]
      exact h.sizes j
  · intro j hj
    dsimp only
    rw [hold j (data_lt h.toTaskOk hj)]
    exact h.queued j hj

/-- A task with one more block of coherent memory. -/
def WriteTask.addCoherent (t : WriteTask) (blockSize : Int) : WriteTask :=
  { t.addBlock (coherentBlock t blockSize) with
    memory := t.memory.alloc blockSize.toNat
    bufferSize := s32 (t.bufferSize + blockSize) }

theorem kept_addCoherent (h : Kept ⟨t, accepted, passed⟩) (hroom : t.bufsNum < t.maxBufs)
    (hsize : 0 < blockSize ∧ blockSize < 2147483648) :
    Kept ⟨t.addCoherent blockSize, accepted, passed⟩ := by
  have halloc := kept_allocated h blockSize.toNat t.codecMmBuffer (s32 (t.bufferSize + blockSize))
  refine kept_addBlock (b := coherentBlock t blockSize) halloc hroom rfl hsize ?_ ?_
  · exact Heap.owned_new le_rfl (by show (0 : Int) + blockSize.toNat ≤ _; omega)
  · intro j hj
    obtain ⟨-, -, hown⟩ := h.memory j hj
    exact .inl hown.fresh

end blocks

section coherent

/-- Blocks allocated one by one keep the books. -/
theorem kept_coherent (h : Kept ⟨t, accepted, passed⟩) (hroom : t.bufsNum + left ≤ t.maxBufs)
    (hsize : 0 < blockSize ∧ blockSize < 2147483648) :
    Kept ⟨allocLoop env .coherent newNum blockSize left i t, accepted, passed⟩ := by
  induction left generalizing t i with
  | zero => exact h
  | succ left ih =>
    rw [allocLoop]
    split
    · apply ih (kept_addCoherent h (by omega) hsize)
      show t.bufsNum + 1 + left ≤ t.maxBufs
      omega
    · exact kept_refused h rfl

/-- What a call with coherent memory adds: so many blocks, none of them shared. -/
theorem coherent_blocks :
    (allocLoop env .coherent newNum blockSize left i t).bufsNum =
      t.bufsNum + gotten env t.bufsNum left ∧
    (∀ j < t.bufsNum, (allocLoop env .coherent newNum blockSize left i t).buf j = t.buf j) ∧
    ∀ j, t.bufsNum ≤ j → j < t.bufsNum + gotten env t.bufsNum left →
      ((allocLoop env .coherent newNum blockSize left i t).buf j).fromCma = false := by
  induction left generalizing t i with
  | zero => exact ⟨rfl, fun _ _ => rfl, fun j h1 h2 => by rw [gotten] at h2; omega⟩
  | succ left ih =>
    rw [allocLoop, gotten]
    by_cases hgot : env.coherent t.bufsNum
    · rw [if_pos hgot, if_pos hgot]
      obtain ⟨hnum, hold, hnew⟩ := ih (t := t.addCoherent blockSize) (i := i + 1)
      have hbufs : (t.addCoherent blockSize).bufsNum = t.bufsNum + 1 := rfl
      rw [hbufs] at hnum hold hnew
      refine ⟨?_, ?_, ?_⟩
      · apply hnum.trans
        omega
      · intro j hj
        apply (hold j (by omega)).trans
        exact Function.update_of_ne (by omega) _ _
      · intro j h1 h2
        by_cases hj : j = t.bufsNum
        · have hself : (t.addCoherent blockSize).buf j = coherentBlock t blockSize := by
            rw [hj]
            exact Function.update_self _ _ _
          apply (congrArg ThreadrwBuf.fromCma (hold j (by omega))).trans
          rw [hself]
          rfl
        · exact hnew j (by omega) (by omega)
    · rw [if_neg hgot, if_neg hgot]
      refine ⟨rfl, fun j hj => Function.update_of_ne (by omega) _ _, fun j h1 h2 => ?_⟩
      omega

end coherent

section shared

/-- Blocks cut one after another out of an allocation that has room for all of them keep the books.
The blocks cut so far end where the next one starts. -/
theorem kept_shared {id : Nat} {bytes : List UInt8} (h : Kept ⟨t, accepted, passed⟩)
    (hroom : t.bufsNum + left ≤ t.maxBufs) (hcount : (i : Int) + left = newNum)
    (hsize : 0 < blockSize) (htotal : blockSize * newNum ≤ totalMm ∧ totalMm < 2147483648)
    (hbytes : t.memory[id]? = some (some bytes)) (hlen : bytes.length = totalMm.toNat)
    (hmapped : ∀ k < left, env.mapped (t.bufsNum + k) = true)
    (hbelow : 0 < left → ∀ j < t.bufsNum, (t.buf j).dmaHandle.base = some id →
      (t.buf j).dmaHandle.off + (t.buf j).bufferSize ≤ blockSize * i) :
    Kept ⟨allocLoop env (.shared (some id) totalMm) newNum blockSize left i t, accepted, passed⟩ := by
  induction left generalizing t i with
  | zero => exact h
  | succ left ih =>
    rw [allocLoop]
    push_cast at hcount
    have hstart : 0 ≤ blockSize * i := Int.mul_nonneg hsize.le (Int.natCast_nonneg i)
    have hnext : blockSize * (i + 1 : Nat) = blockSize * i + blockSize := by
      push_cast
      rw [Int.mul_add, Int.mul_one]
    have hlast : blockSize * (i + 1 : Nat) ≤ blockSize * newNum :=
      Int.mul_le_mul_of_nonneg_left (by push_cast; omega) hsize.le
    have hoff : s32 (blockSize * i) = blockSize * i := s32_of_range (by omega) (by omega)
    have hrest : s32 (totalMm - blockSize * i) = totalMm - blockSize * i :=
      s32_of_range (by omega) (by omega)
    set c := sharedBlock t env (some id) totalMm newNum blockSize i with hc
    have hplace : c.dmaHandle = ⟨some id, blockSize * i⟩ := by
      rw [hc]
      dsimp only [sharedBlock]
      rw [hoff]
    have hvirt : c.vbuffer = some c.dmaHandle := by
      rw [hc]
      dsimp only [sharedBlock]
      exact if_pos (hmapped 0 (Nat.succ_pos left))
    have hsizes : c.bufferSize = if (i : Int) = newNum - 1 then totalMm - blockSize * i
        else blockSize := by
      rw [hc]
      dsimp only [sharedBlock]
      rw [hoff, hrest]
    have hfit : 0 < c.bufferSize ∧ blockSize * i + c.bufferSize ≤ totalMm := by
      rw [hsizes]
      split <;> omega
    have hkept : Kept ⟨t.addBlock c, accepted, passed⟩ := by
      refine kept_addBlock h (by omega) hvirt ⟨hfit.1, by omega⟩ ?_ ?_
      · rw [hplace]
        exact ⟨bytes, Heap.bytesAt_eq_some.mpr ⟨id, rfl, hbytes⟩, hstart, by
          rw [hlen]; dsimp only; omega⟩
      · intro j hj
        obtain ⟨-, hpos, -⟩ := h.memory j hj
        dsimp only at hpos
        rw [hplace]
        by_cases hbase : (t.buf j).dmaHandle.base = some id
        · have hend := hbelow (Nat.succ_pos left) j hj hbase
          exact .inr (.inl (by dsimp only; omega))
        · exact .inl hbase
    refine ih hkept ?_ (by push_cast; omega) hbytes ?_ ?_
    · show t.bufsNum + 1 + left ≤ t.maxBufs
      omega
    · intro k hk
      have hnum : (t.addBlock c).bufsNum + k = t.bufsNum + (k + 1) := by
        show t.bufsNum + 1 + k = _
        omega
      rw [hnum]
      exact hmapped (k + 1) (Nat.succ_lt_succ hk)
    · intro hmore j hj hbase
      have hlt : j < t.bufsNum + 1 := hj
      by_cases hjn : j = t.bufsNum
      · have hself : (t.addBlock c).buf j = c := by
          rw [hjn]
          exact Function.update_self _ _ _
        rw [hself, hplace, hsizes, if_neg (by omega), hnext]
      · have hsame : (t.addBlock c).buf j = t.buf j := Function.update_of_ne hjn _ _
        rw [hsame] at hbase ⊢
        have hend := hbelow (Nat.succ_pos left) j (by omega) hbase
        omega

theorem shared_blocks (env : MmEnv) (startAddr : Option Nat) (totalMm newNum blockSize : Int)
    (left i : Nat) (t : WriteTask) :
    (allocLoop env (.shared startAddr totalMm) newNum blockSize left i t).bufsNum =
      t.bufsNum + left ∧
    (allocLoop env (.shared startAddr totalMm) newNum blockSize left i t).memory = t.memory ∧
    (∀ j < t.bufsNum,
      (allocLoop env (.shared startAddr totalMm) newNum blockSize left i t).buf j = t.buf j) ∧
    ∀ k < left, ∃ u : WriteTask, u.bufsNum = t.bufsNum + k ∧
      (allocLoop env (.shared startAddr totalMm) newNum blockSize left i t).buf (t.bufsNum + k) =
        sharedBlock u env startAddr totalMm newNum blockSize (i + k) := by
  induction left generalizing t i with
  | zero => exact ⟨rfl, rfl, fun _ _ => rfl, fun k hk => absurd hk (Nat.not_lt_zero k)⟩
  | succ left ih =>
    rw [allocLoop]
    set c := sharedBlock t env startAddr totalMm newNum blockSize i with hc
    obtain ⟨hnum, hmem, hold, hnew⟩ := ih (i + 1) (t.addBlock c)
    have hbufs : (t.addBlock c).bufsNum = t.bufsNum + 1 := rfl
    rw [hbufs] at hnum hold hnew
    refine ⟨by rw [hnum]; omega, hmem, ?_, ?_⟩
    · intro j hj
      apply (hold j (by omega)).trans
      exact Function.update_of_ne (by omega) _ _
    · intro k hk
      cases k with
      | zero =>
        refine ⟨t, rfl, (hold t.bufsNum (Nat.lt_succ_self _)).trans ?_⟩
        rw [WriteTask.addBlock, hc]
        exact Function.update_self _ _ _
      | succ k =>
        obtain ⟨u, hu, hblock⟩ := hnew k (by omega)
        have hindex : t.bufsNum + 1 + k = t.bufsNum + (k + 1) := by omega
        have hcount : i + 1 + k = i + (k + 1) := by omega
        rw [hindex, hcount] at hblock
        exact ⟨u, by rw [hu, hindex], hblock⟩

end shared

section calls

/-- Every block has memory of its own size. -/
def WriteTask.Backed (t : WriteTask) : Prop :=
  ∀ i < t.bufsNum, (t.buf i).vbuffer = some (t.buf i).dmaHandle ∧ 0 < (t.buf i).bufferSize ∧
    t.memory.Owned (t.buf i).dmaHandle (t.buf i).bufferSize.toNat

variable {newBuffers size : Int}

theorem newNum_room (hroom : t.bufsNum ≤ t.maxBufs) (newBuffers : Int) :
    t.bufsNum + (t.newNum newBuffers).toNat ≤ t.maxBufs := by
  rw [WriteTask.newNum]
  split <;> omega

theorem blockSizeOf_range (hsize : size < 2147483648) :
    0 < blockSizeOf size ∧ blockSizeOf size < 2147483648 := by
  rw [blockSizeOf, DEFAULT_BLOCK_SIZE]
  split <;> omega

/-- An aligned size in range. -/
theorem align17_range {x : Int} (h0 : 131072 ≤ x) (h1 : x ≤ 2147352576) :
    x ≤ align17 x ∧ align17 x < 2147483648 := by
  rw [align17, s32_of_range (by omega) (by omega)]
  omega

theorem kept_allocShared (h : Kept ⟨t, accepted, passed⟩) :
    Kept ⟨(allocShared t env newNum blockSize).1, accepted, passed⟩ := by
  by_cases hone : OneByOne t env newNum blockSize
  · rw [allocShared_oneByOne hone]
    exact h
  · obtain ⟨huse, hnot⟩ := Classical.not_imp.mp hone
    by_cases hbig : 131072 ≤ s32 (blockSize * newNum)
    · have hshared : env.shared = true := by
        rw [← Bool.not_eq_false]
        exact fun hf => hnot ⟨hbig, hf⟩
      obtain ⟨mmSlot, heq⟩ := allocShared_big huse hbig hshared
      rw [heq]
      exact kept_allocated h _ _ _
    · rw [allocShared_small huse hbig]
      exact h

/-- A call whose blocks fit keeps the books. -/
theorem kept_allocBlocks (newBuffers : Int) (h : Kept ⟨t, accepted, passed⟩) (hsize : size < 2147483648)
    (hfits : Fits t env (t.newNum newBuffers) (blockSizeOf size)) :
    Kept ⟨allocBlocks t newBuffers size env, accepted, passed⟩ := by
  have hrange := blockSizeOf_range hsize
  have hroom := newNum_room h.room newBuffers
  rw [allocBlocks]
  dsimp only at hroom ⊢
  set n := t.newNum newBuffers with hn
  by_cases hpos : 0 < n
  · by_cases hone : OneByOne t env n (blockSizeOf size)
    · rw [allocShared_oneByOne hone]
      exact kept_coherent h hroom hrange
    · obtain ⟨huse, hnot⟩ := Classical.not_imp.mp hone
      obtain ⟨hbig, hshare⟩ := hfits hpos huse
      have hshared : env.shared = true := by
        rw [← Bool.not_eq_false]
        exact fun hf => hnot ⟨hbig, hf⟩
      obtain ⟨htotal, hmapped⟩ := hshare hshared
      obtain ⟨mmSlot, heq⟩ := allocShared_big huse hbig hshared
      have hprod : 0 ≤ blockSizeOf size * n := Int.mul_nonneg hrange.1.le hpos.le
      have hs : s32 (blockSizeOf size * n) = blockSizeOf size * n :=
        s32_of_range (by omega) (by omega)
      rw [hs] at hbig heq
      have halign := align17_range hbig htotal
      rw [heq]
      have hlen : (List.replicate (align17 (blockSizeOf size * n)).toNat (0 : UInt8)).length =
          (align17 (blockSizeOf size * n)).toNat := List.length_replicate
      refine kept_shared (kept_allocated h _ _ _) hroom ?_ hrange.1 halign ?_ hlen hmapped ?_
      · have hnat := Int.toNat_of_nonneg hpos.le
        push_cast
        omega
      · exact List.getElem?_concat_length
      · intro _ j hj hbase
        obtain ⟨-, -, hown⟩ := h.memory j hj
        exact absurd hbase hown.fresh
  · have hzero : n.toNat = 0 := by omega
    rw [hzero]
    exact kept_allocShared h

/-- The offsets of the blocks leave the allocation when together they are too large for it. -/
theorem too_large {n : Int} (hsize : 0 < blockSize ∧ blockSize < 2147483648) (hn : 0 < n)
    (hbig : 131072 ≤ s32 (blockSize * n)) (hover : 2147352576 < blockSize * n) :
    ∃ k : Nat, (k : Int) < n ∧ (s32 (blockSize * k) < 0 ∨ align17 (s32 (blockSize * n)) ≤ 0 ∧
      0 ≤ s32 (blockSize * k)) := by
  by_cases hfirst : blockSize * n < 2147483648
  · refine ⟨0, hn, .inr ⟨?_, ?_⟩⟩
    · rw [s32_of_range (by omega) hfirst, align17, s32]
      omega
    · rw [Int.natCast_zero, Int.mul_zero]
      decide
  · have hpred : blockSize * n = blockSize * (n - 1) + blockSize := by
      rw [Int.mul_sub, Int.mul_one]
      omega
    by_cases hsecond : blockSize * (n - 1) < 2147483648
    · rw [s32] at hbig
      omega
    · -- the first block that starts beyond the range of `int`
      have hdiv := Int.mul_ediv_add_emod 2147483647 blockSize
      have hmod0 := Int.emod_nonneg 2147483647 hsize.1.ne'
      have hmod1 := Int.emod_lt_of_pos 2147483647 hsize.1
      set q := (2147483647 : Int) / blockSize with hq
      have hq0 : 0 ≤ q := Int.ediv_nonneg (by decide) hsize.1.le
      have hnext : blockSize * (q + 1) = blockSize * q + blockSize := by
        rw [Int.mul_add, Int.mul_one]
      have hlt : q < n - 1 := by
        refine lt_of_mul_lt_mul_left ?_ hsize.1.le
        show blockSize * q < blockSize * (n - 1)
        omega
      refine ⟨(q + 1).toNat, by omega, .inl ?_⟩
      rw [Int.toNat_of_nonneg (by omega), s32]
      omega

/-- A call whose blocks do not fit leaves a block without memory. -/
theorem not_backed_allocBlocks (hsize : size < 2147483648)
    (hfits : ¬ Fits t env (t.newNum newBuffers) (blockSizeOf size)) :
    ¬ (allocBlocks t newBuffers size env).Backed ∧
      (allocBlocks t newBuffers size env).bufsNum = t.bufsNum + (t.newNum newBuffers).toNat ∧
      0 < t.newNum newBuffers := by
  have hrange := blockSizeOf_range hsize
  rw [allocBlocks]
  set n := t.newNum newBuffers with hn
  obtain ⟨hpos, hrest⟩ := Classical.not_imp.mp hfits
  obtain ⟨huse, hnot⟩ := Classical.not_imp.mp hrest
  have hnat := Int.toNat_of_nonneg hpos.le
  by_cases hbig : 131072 ≤ s32 (blockSizeOf size * n)
  · obtain ⟨hshared, hbad⟩ := Classical.not_imp.mp fun hall => hnot ⟨hbig, hall⟩
    obtain ⟨mmSlot, heq⟩ := allocShared_big huse hbig hshared
    rw [heq]
    dsimp only
    set total := align17 (s32 (blockSizeOf size * n)) with htotal
    obtain ⟨hnum, hmem, -, hblocks⟩ := shared_blocks env (some t.memory.length) total n
      (blockSizeOf size) n.toNat 0 (t.withShared mmSlot total)
    refine ⟨fun hback => ?_, hnum, hpos⟩
    -- what being backed says of the `k`-th block
    have hplaced : ∀ k < n.toNat, env.mapped (t.bufsNum + k) = true ∧
        0 ≤ s32 (blockSizeOf size * k) ∧ s32 (blockSizeOf size * k) < total.toNat := by
      intro k hk
      obtain ⟨u, hu, hblock⟩ := hblocks k hk
      have hlt : t.bufsNum + k < t.bufsNum + n.toNat := Nat.add_lt_add_left hk _
      obtain ⟨hv, hpos', hown⟩ := hback (t.bufsNum + k) (hnum.symm ▸ hlt)
      rw [show (t.withShared mmSlot total).bufsNum = t.bufsNum from rfl] at hblock hu
      rw [hblock, Nat.zero_add] at hv hpos' hown
      rw [hmem] at hown
      dsimp only [sharedBlock] at hv hown
      have hmap : env.mapped u.bufsNum = true := by
        by_contra hno
        rw [if_neg hno] at hv
        cases hv
      obtain ⟨b, hb, hoff, hend⟩ := hown
      have hnew := Heap.bytesAt_new (h := t.memory) (n := total.toNat) (s32 (blockSizeOf size * k))
      obtain rfl := Option.some.inj (hnew.symm.trans hb)
      rw [List.length_replicate] at hend
      dsimp only at hoff hend hpos'
      refine ⟨hu ▸ hmap, hoff, ?_⟩
      dsimp only [sharedBlock] at hpos'
      omega
    refine hbad ⟨?_, fun k hk => (hplaced k hk).1⟩
    by_contra hover
    obtain ⟨k, hk, hout⟩ := too_large hrange hpos hbig (by omega)
    obtain ⟨-, h0, h1⟩ := hplaced k (by omega)
    rw [← htotal] at hout
    omega
  · rw [allocShared_small huse hbig]
    obtain ⟨hnum, -, -, hblocks⟩ := shared_blocks env none 0 n (blockSizeOf size) n.toNat 0 t
    refine ⟨fun hback => ?_, hnum, hpos⟩
    obtain ⟨u, -, hblock⟩ := hblocks 0 (by omega)
    obtain ⟨-, -, hown⟩ := hback t.bufsNum (hnum.symm ▸ by omega)
    rw [Nat.add_zero] at hblock
    rw [hblock] at hown
    obtain ⟨b, hb, -⟩ := hown
    cases hb

/-- A release takes the memory from every block that lies in it. -/
theorem not_owned_foldl {l : List Nat} {p : Place} {n id : Nat} {memory : Heap}
    (hi : i ∈ l) (hid : p.base = some id) (hb : (t.buf i).vbuffer.bind Place.base = some id)
    (hfrom : (t.buf i).fromCma = false) : ¬ Heap.Owned (l.foldl t.releaseBlock memory) p n := by
  have hback : ∀ (l : List Nat) (memory : Heap),
      Heap.Owned (l.foldl t.releaseBlock memory) p n → memory.Owned p n := by
    intro l
    induction l with
    | nil => exact fun _ h => h
    | cons j l ih =>
      intro memory h
      have hj := ih _ h
      rw [WriteTask.releaseBlock] at hj
      split at hj
      · exact hj
      · exact hj.of_release
  obtain ⟨before, after, rfl⟩ := List.append_of_mem hi
  rw [List.foldl_append, List.foldl_cons]
  intro hown
  have hthere := hback after _ hown
  rw [WriteTask.releaseBlock, hfrom, hb] at hthere
  exact Heap.not_owned_release hid hthere

/-- The number of blocks after a call that needs no shared memory. -/
theorem oneByOne_bufsNum (hone : OneByOne t env (t.newNum newBuffers) (blockSizeOf size)) :
    (allocBlocks t newBuffers size env).bufsNum =
      t.bufsNum + gotten env t.bufsNum (t.newNum newBuffers).toNat := by
  rw [allocBlocks, allocShared_oneByOne hone]
  exact coherent_blocks.1

/-- The number of blocks after a call that takes them from shared memory: all of them. -/
theorem shared_bufsNum (hone : ¬ OneByOne t env (t.newNum newBuffers) (blockSizeOf size)) :
    (allocBlocks t newBuffers size env).bufsNum = t.bufsNum + (t.newNum newBuffers).toNat := by
  obtain ⟨huse, hnot⟩ := Classical.not_imp.mp hone
  rw [allocBlocks]
  by_cases hbig : 131072 ≤ s32 (blockSizeOf size * t.newNum newBuffers)
  · have hshared : env.shared = true := by
      rw [← Bool.not_eq_false]
      exact fun hf => hnot ⟨hbig, hf⟩
    obtain ⟨mmSlot, heq⟩ := allocShared_big huse hbig hshared
    rw [heq]
    exact (shared_blocks _ _ _ _ _ _ _ _).1
  · rw [allocShared_small huse hbig]
    exact (shared_blocks _ _ _ _ _ _ _ _).1

theorem kept_defaulted (h : Kept ⟨u, accepted, passed⟩) : Kept ⟨u.defaulted, accepted, passed⟩ := by
  rw [WriteTask.defaulted]
  split
  · exact h.congr rfl rfl rfl rfl rfl rfl rfl h.errors (h.sizes 0)
  · exact h

theorem backed_defaulted : u.defaulted.Backed ↔ u.Backed := by
  rw [WriteTask.defaulted]
  split <;> exact Iff.rfl

/-- The flag for a failed call does not matter either. -/
theorem kept_failedOnmore (h : Kept ⟨u, accepted, passed⟩) (c : Prop) [Decidable c] :
    Kept ⟨if c then { u with failedOnmore := true } else u, accepted, passed⟩ := by
  split
  · exact h.congr rfl rfl rfl rfl rfl rfl rfl h.errors h.defSize
  · exact h

theorem backed_failedOnmore (c : Prop) [Decidable c] :
    (if c then { u with failedOnmore := true } else u).Backed ↔ u.Backed := by
  split <;> exact Iff.rfl

/-- A call whose blocks fit, and that does not empty the task, keeps the books. -/
theorem kept_alloc (newBuffers : Int) (h : Kept ⟨t, accepted, passed⟩) (hsize : size < 2147483648)
    (hfits : Fits t env (t.newNum newBuffers) (blockSizeOf size))
    (hstays : ¬ Emptied t env (t.newNum newBuffers) (blockSizeOf size)) :
    Kept ⟨(allocTaskBuffersInlock t newBuffers size env).2, accepted, passed⟩ := by
  have hkept := kept_allocBlocks newBuffers h hsize hfits
  rw [allocTaskBuffersInlock]
  split
  · exact kept_defaulted hkept
  · rename_i hfew
    rw [not_or, not_or] at hfew
    obtain ⟨hnone, hlt, hne⟩ := hfew
    dsimp only
    split
    · rename_i hpos
      refine absurd ?_ hstays
      have hzero : t.bufsNum = 0 := by omega
      by_cases hone : OneByOne t env (t.newNum newBuffers) (blockSizeOf size)
      · have hnum := oneByOne_bufsNum hone
        rw [hzero, Nat.zero_add] at hnum
        rw [hnum] at hpos hlt hne
        exact ⟨hzero, hone, hpos, by omega, hne⟩
      · have hnum := shared_bufsNum hone
        omega
    · exact hkept

/-- Any other call leaves a block without memory. -/
theorem not_backed_alloc (newBuffers : Int) (h : Kept ⟨t, accepted, passed⟩) (hsize : size < 2147483648)
    (hbad : Fits t env (t.newNum newBuffers) (blockSizeOf size) →
      Emptied t env (t.newNum newBuffers) (blockSizeOf size)) :
    ¬ (allocTaskBuffersInlock t newBuffers size env).2.Backed := by
  rw [allocTaskBuffersInlock]
  by_cases hfits : Fits t env (t.newNum newBuffers) (blockSizeOf size)
  · obtain ⟨hzero, hone, hpos, hlt, hne⟩ := hbad hfits
    have hkept := kept_allocBlocks newBuffers h hsize hfits
    have hnum := oneByOne_bufsNum hone
    rw [hzero, Nat.zero_add] at hnum
    have hcoherent : ((allocBlocks t newBuffers size env).buf 0).fromCma = false := by
      have hstart : t.bufsNum ≤ 0 := hzero.le
      have hend : 0 < t.bufsNum + gotten env t.bufsNum (t.newNum newBuffers).toNat := by
        rw [hzero]
        omega
      rw [allocBlocks, allocShared_oneByOne hone]
      exact coherent_blocks.2.2 0 hstart hend
    set v := allocBlocks t newBuffers size env with hv
    rw [if_neg (by omega), if_pos (by omega)]
    intro hback
    have hlt0 : 0 < v.bufsNum := by omega
    obtain ⟨hvirt, -, hown⟩ := hkept.memory 0 hlt0
    obtain ⟨-, -, hfreed⟩ := hback 0 hlt0
    dsimp only at hvirt hown
    obtain ⟨b, hb, -⟩ := hown
    obtain ⟨id, hid, -⟩ := Heap.bytesAt_eq_some.mp hb
    refine not_owned_foldl (List.mem_range.mpr hlt0) hid ?_ hcoherent hfreed
    rw [hvirt]
    exact hid
  · obtain ⟨hnot, hnum, hpos⟩ := not_backed_allocBlocks hsize hfits
    rw [if_pos (by omega)]
    exact fun hback => hnot (backed_defaulted.mp hback)

end calls

section runs

/-- The condition on a call for more blocks. -/
def MoreFits (t : WriteTask) (size : Int) (env : MmEnv) : Prop :=
  Fits t env (t.newNum (moreNum t (moreBlockSize t) size)) (blockSizeOf (moreBlockSize t)) ∧
    ¬ Emptied t env (t.newNum (moreNum t (moreBlockSize t) size)) (blockSizeOf (moreBlockSize t))

/-- The condition on each operation: the copies of a write succeed, and more blocks fit. -/
def TaskOp.Fits (s : Session) : TaskOp → Prop
  | .write _ data uncopied =>
    CopiesSucceed s.task.sizeOf uncopied s.task.freefifo 0 data.bytes.length
  | .work _ => True
  | .more size env => MoreFits s.task size.toInt env

theorem kept_write (h : Kept s) {buf : Nat} {data : UserData} {uncopied : Nat → Nat}
    (hcopies : CopiesSucceed s.task.sizeOf uncopied s.task.freefifo 0 data.bytes.length) :
    ∃ s', taskStep s (.write buf data uncopied) = some s' ∧ Kept s' := by
  obtain ⟨t, accepted, passed⟩ := s
  obtain ⟨off, ret, t', hloop, -, hkept⟩ :=
    kept_writeLoop buf (t.freefifo.length + 1) h (Nat.lt_succ_self _) data.small hcopies
  rw [Nat.sub_zero] at hkept
  refine ⟨_, by rw [taskStep, threadrwWriteIn]; dsimp only; rw [hloop]; rfl, ?_⟩
  exact kept_counted hkept off

theorem broken_write (h : Kept s) {buf : Nat} {data : UserData} {uncopied : Nat → Nat}
    (hcopies : ¬ CopiesSucceed s.task.sizeOf uncopied s.task.freefifo 0 data.bytes.length)
    {s' : Session} (hs : taskStep s (.write buf data uncopied) = some s') : ¬ TaskOk s' := by
  obtain ⟨t, accepted, passed⟩ := s
  rw [taskStep, threadrwWriteIn, Option.map_map, Option.map_eq_some_iff] at hs
  obtain ⟨⟨off, ret, t'⟩, hloop, rfl⟩ := hs
  obtain ⟨a, ha⟩ := writeLoop_user buf (t.freefifo.length + 1) h (Nat.lt_succ_self _)
    data.small hcopies hloop
  intro hok
  refine no_user (a := a) hok (List.mem_append_left _ ?_)
  show Address.user a ∈ (t'.counted off).freefifo
  have hsame : (t'.counted off).freefifo = t'.freefifo := by
    rw [WriteTask.counted]
    split <;> rfl
  rw [hsame]
  exact ha

theorem moreBlockSize_range (h : Kept s) : moreBlockSize s.task < 2147483648 := by
  obtain ⟨-, hlt⟩ := h.defSize
  rw [moreBlockSize]
  split <;> omega

/-- A call for no blocks changes nothing that the books are about. -/
theorem more_none (h : Kept s) {size : Int} (hnum : moreNum s.task (moreBlockSize s.task) size = 0) :
    MoreFits s.task size env := by
  have hroom := h.room
  have hzero : s.task.newNum 0 = 0 := by
    rw [WriteTask.newNum]
    split <;> omega
  rw [MoreFits, hnum, hzero]
  refine ⟨fun hpos => absurd hpos (lt_irrefl 0), ?_⟩
  rintro ⟨-, -, hpos, -⟩
  exact absurd hpos (Nat.lt_irrefl 0)

theorem kept_more (h : Kept s) {size : Int32} (hfits : MoreFits s.task size.toInt env) :
    Kept { s with task := (threadrwAllocMoreBufferSize s.task size env).2 } := by
  obtain ⟨t, accepted, passed⟩ := s
  have hcall : Kept ⟨(if moreNum t (moreBlockSize t) size.toInt ≠ 0 then
      allocTaskBuffersInlock t (moreNum t (moreBlockSize t) size.toInt) (moreBlockSize t) env
      else (-1, t)).2, accepted, passed⟩ := by
    split
    · exact kept_alloc _ h (moreBlockSize_range h) hfits.1 hfits.2
    · exact h
  exact kept_failedOnmore hcall _

theorem broken_more (h : Kept s) {size : Int32} (hfits : ¬ MoreFits s.task size.toInt env) :
    ¬ TaskOk { s with task := (threadrwAllocMoreBufferSize s.task size env).2 } := by
  obtain ⟨t, accepted, passed⟩ := s
  have hnum : moreNum t (moreBlockSize t) size.toInt ≠ 0 := fun he => hfits (more_none h he)
  have hnot := not_backed_alloc (moreNum t (moreBlockSize t) size.toInt) h (moreBlockSize_range h)
    (fun hf => by_contra fun hn => hfits ⟨hf, hn⟩)
  intro hok
  apply hnot
  have hback := (backed_failedOnmore _).mp hok.memory
  dsimp only at hback
  rw [if_pos hnum] at hback
  exact hback

theorem kept_taskStep (s : Session) (op : TaskOp) (h : Kept s) (hfits : op.Fits s) :
    ∃ s', taskStep s op = some s' ∧ Kept s' := by
  cases op with
  | write buf data uncopied => exact kept_write h hfits
  | work ret => exact kept_work h ret
  | more size env => exact ⟨_, rfl, kept_more h hfits⟩

theorem broken_taskStep (s : Session) (op : TaskOp) (s' : Session) (h : Kept s)
    (hfits : ¬ op.Fits s) (hs : taskStep s op = some s') : ¬ TaskOk s' := by
  cases op with
  | write buf data uncopied => exact broken_write h hfits hs
  | work ret => exact absurd trivial hfits
  | more size env =>
    obtain rfl := Option.some.inj hs
    exact broken_more h hfits

theorem kept_newTask (maxBufs : Nat) (audio : Bool) : Kept ⟨newTask maxBufs audio, [], []⟩ := by
  refine ⟨⟨List.Perm.refl [], ?_, ?_, [], rfl, rfl⟩, fun i => ?_, ?_, le_rfl, ?_, Nat.zero_le _⟩
  · exact fun i hi => absurd hi (Nat.not_lt_zero i)
  · exact fun i hi => absurd hi (Nat.not_lt_zero i)
  · show (0 : Int) ≤ 0 ∧ (0 : Int) < 2147483648
    decide
  · exact fun i hi => absurd hi List.not_mem_nil
  · show (0 : Int) ≤ 0 ∧ (0 : Int) < 2147483648
    decide

/-- The condition on `threadrw_alloc`. -/
def AllocFits (num blockSize : Int32) (audio : Bool) (env : MmEnv) : Prop :=
  Fits (newTask (maxBufsOf num.toInt audio).toNat audio) env
    ((newTask (maxBufsOf num.toInt audio).toNat audio).newNum num.toInt)
    (blockSizeOf blockSize.toInt)

instance (num blockSize : Int32) (audio : Bool) (env : MmEnv) :
    Decidable (AllocFits num blockSize audio env) := inferInstanceAs (Decidable (Fits _ _ _ _))

instance (t : WriteTask) (size : Int) (env : MmEnv) : Decidable (MoreFits t size env) :=
  inferInstanceAs (Decidable (_ ∧ _))

instance TaskOp.Fits.decidable (s : Session) : (op : TaskOp) → Decidable (op.Fits s)
  | .write _ _ _ => inferInstanceAs (Decidable (CopiesSucceed _ _ _ _ _))
  | .work _ => inferInstanceAs (Decidable True)
  | .more _ _ => inferInstanceAs (Decidable (MoreFits _ _ _))

variable {num blockSize : Int32} {audio room : Bool}

/-- A new task is one whose blocks all came. -/
theorem threadrwAlloc_eq (h : threadrwAlloc num blockSize audio env room = some t) :
    t = (allocBlocks (newTask (maxBufsOf num.toInt audio).toNat audio) num.toInt blockSize.toInt
      env).defaulted := by
  rw [threadrwAlloc] at h
  split at h
  · cases h
  · rw [allocTaskBuffersInlock] at h
    dsimp only at h
    split at h
    · rw [if_neg (show ¬ (0 : Int) < 0 by decide)] at h
      exact (Option.some.inj h).symm
    · rw [if_pos (show (-1 : Int) < 0 by decide)] at h
      cases h

/-- From the allocation of a task on, every block stays in one of the FIFOs with memory of its own
and the bytes come out in the order they went in, exactly when every copy from user space succeeds
and the blocks of every call fit. -/
theorem task_ok_iff (ops : List TaskOp)
    (h : threadrwAlloc num blockSize audio env room = some t) :
    ((∃ u, run taskStep ⟨t, [], []⟩ ops = some u) ∧ Always taskStep TaskOk ⟨t, [], []⟩ ops) ↔
      AllocFits num blockSize audio env ∧
        Guarded taskStep (fun s op => op.Fits s) ⟨t, [], []⟩ ops := by
  have hsize : blockSize.toInt < 2147483648 := blockSize.toInt_lt
  have ht := threadrwAlloc_eq h
  by_cases hfits : AllocFits num blockSize audio env
  · have hkept : Kept ⟨t, [], []⟩ := by
      rw [ht]
      exact kept_defaulted (kept_allocBlocks _ (kept_newTask _ _) hsize hfits)
    rw [and_iff_right hfits]
    exact defined_iff_guarded (fun s h => h.toTaskOk) kept_taskStep broken_taskStep hkept
  · refine ⟨fun hall => ?_, fun hall => absurd hall.1 hfits⟩
    have hback : t.Backed := (always_head hall.2).memory
    rw [ht] at hback
    exact absurd (backed_defaulted.mp hback) (not_backed_allocBlocks hsize hfits).1

/-- Allocators that give all they are asked for. -/
def plenty : MmEnv := ⟨true, true, fun _ => true, fun _ => true⟩

/-- An audio task with two blocks of four bytes. -/
def smallTask : WriteTask := (threadrwAlloc 2 4 true plenty true).get (by decide +kernel)

/-- Six bytes are written, three of the first four are taken, then nothing, then the rest. -/
def smallRun : List TaskOp :=
  [.write 4096 ⟨[1, 2, 3, 4, 5, 6], by decide⟩ fun _ => 0, .work 3, .work (-EAGAIN), .work 1, .work 2,
    .more 4 plenty]

theorem task_ok_small :
    (∃ u, run taskStep ⟨smallTask, [], []⟩ smallRun = some u) ∧
      Always taskStep TaskOk ⟨smallTask, [], []⟩ smallRun :=
  (task_ok_iff smallRun (Option.some_get _).symm).mpr ⟨by decide +kernel, by decide +kernel⟩

/-- A copy that fails loses its block, and the address of the user data is taken for a block. -/
theorem task_not_ok : ¬ ∀ (num blockSize : Int32) (audio room : Bool) (env : MmEnv) (t : WriteTask)
    (ops : List TaskOp), threadrwAlloc num blockSize audio env room = some t →
      (∃ u, run taskStep ⟨t, [], []⟩ ops = some u) ∧
        Always taskStep TaskOk ⟨t, [], []⟩ ops := by
  intro hall
  have halways := (hall 2 4 true true plenty smallTask
    [.write 4096 ⟨[1], by decide⟩ fun _ => 1] (Option.some_get _).symm).2
  have hfree : (taskStep ⟨smallTask, [], []⟩ (.write 4096 ⟨[1], by decide⟩ fun _ => 1)).map
      (fun s => s.task.freefifo) = some [.block 1, .user 4096] := by decide +kernel
  obtain ⟨s, hs, hlist⟩ := Option.map_eq_some_iff.mp hfree
  have hok : TaskOk s := halways.2 s hs
  refine no_user (a := 4096) hok (List.mem_append_left _ ?_)
  rw [hlist]
  exact List.mem_cons_of_mem _ List.mem_cons_self

end runs

end MediaModules.WriteThread
