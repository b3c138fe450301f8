import MediaModules.FrameInput.Layout

/-!
# The circular block

A frame input of type `VDEC_TYPE_FRAME_CIRCULAR` writes all its frames into one block, in circles.
The write pointer moves by a frame and its padding, the read pointer by the frame alone: the space
that is used is that of the queued chunks until the first of them is released.
-/
namespace MediaModules.FrameInput

open MediaModules.Lib.Run
open MediaModules.Lib.Tally

/-- A call of the producer, or a release of the oldest chunk. -/
inductive RingOp
  | addChunk (f : Frame) (mem : Memory)
  | releaseOldest

/-- One call. Without a chunk there is nothing to release. -/
def ringStep (s : VdecInput) : RingOp → Option VdecInput
  | .addChunk f mem => step s (.addChunk f mem)
  | .releaseOldest =>
    match s.vframeChunkList with
    | [] => some s
    | c :: _ => step s (.releaseChunk c.sequence)

/-- The input after `vdec_input_init` and `vdec_input_set_type`, and perhaps
`vdec_input_prepare_bufs`. -/
def ringInput : Option (Bool × (Nat → Memory)) → VdecInput
  | none => vdecInputInit .frameCircular false false
  | some (support4k, mem) => (vdecInputInit .frameCircular false false).prepareBufs support4k mem

/-- The distance from the read to the write pointer, round the block. -/
def usedSpace (block : VframeBlock) : Int :=
  ((block.wp.toNat : Int) - block.rp.toNat) % block.size.toNat

/-- The bytes of the chunks queued in block `b`, with their padding. -/
def VdecInput.queuedSpace (s : VdecInput) (b : Nat) : Nat :=
  tallyAt VframeChunk.block (fun c => c.size.toNat + c.paddingSize.toNat) b s.vframeChunkList

/-- From the first chunk on: the used space is that of the queued chunks, which the block has room
for, and with no chunk queued every frame below the size of the block is accepted. -/
structure RingTracked (s : VdecInput) : Prop where
  used : 0 < s.sequence → ∀ b, s.wrBlock = some b →
    s.queuedSpace b < (s.blocks b).size.toNat ∧ usedSpace (s.blocks b) = s.queuedSpace b
  accepts : 0 < s.sequence → s.vframeChunkList = [] → ∀ b, s.wrBlock = some b →
    ∀ (f : Frame) (mem : Memory) (t : VdecInput),
      f.count.toNat + (needPaddingSize f.count).toNat < (s.blocks b).size.toNat →
        s.addChunk f mem ≠ some (t, .error .eagain)

/-- A frame whose size the room of the block is not compared with: the first one of a block, or
one with a padding that makes the sum overflow. -/
def Unchecked (s : VdecInput) (f : Frame) : Prop :=
  s.sequence = 0 ∨ 2 ^ 64 ≤ f.count.toNat + (needPaddingSize f.count).toNat

/-- If the frame is queued, it and its padding fit into the rest of the block found for it. -/
def FrameFits (s : VdecInput) (f : Frame) (mem : Memory) : Prop :=
  ∀ t b, s.chooseBlock f.count (needPaddingSize f.count) mem = some (t, .ok b) → mem.chunk = true →
    s.queuedSpace b + (f.count.toUInt32.toNat + (needPaddingSize f.count).toUInt32.toNat) <
      (t.blocks b).size.toNat

/-- No chunk is released, and what the code does not compare fits into the block. -/
def RingOk (s : VdecInput) : RingOp → Prop
  | .addChunk f mem => Unchecked s f → FrameFits s f mem
  | .releaseOldest => s.vframeChunkList = []

/-- A block that no frame was written to. -/
structure Unwritten (block : VframeBlock) : Prop where
  type : block.type = .frameCircular
  own : block.isOutBuf = false
  wp : block.wp = 0
  rp : block.rp = 0

/-- Nothing was released: the write pointer shows all that was queued. -/
structure RingKept (s : VdecInput) : Prop where
  direct : s.Direct
  inputType : s.type = .frameCircular
  started : s.sequence = 0 ↔ s.vframeChunkList = []
  unwritten : s.sequence = 0 →
    ∀ b ∈ s.vframeBlockFreeList, b < s.blockIdSeq ∧ Unwritten (s.blocks b)
  writes : 0 < s.sequence → s.wrBlock ≠ none
  type : ∀ b, s.wrBlock = some b → (s.blocks b).type = .frameCircular
  own : ∀ b, s.wrBlock = some b → (s.blocks b).isOutBuf = false
  rp : ∀ b, s.wrBlock = some b → (s.blocks b).rp = 0
  wp : ∀ b, s.wrBlock = some b → (s.blocks b).wp.toNat = s.queuedSpace b
  room : 0 < s.sequence → ∀ b, s.wrBlock = some b → s.queuedSpace b < (s.blocks b).size.toNat
  placed : ∀ b, s.wrBlock = some b → ∀ c ∈ s.vframeChunkList, c.block = b
  padded : ∀ c ∈ s.vframeChunkList, 0 < c.paddingSize.toNat

theorem needPaddingSize_toUInt32 (count : UInt64) :
    (needPaddingSize count).toUInt32.toNat = (needPaddingSize count).toNat := by
  have hbounds := needPaddingSize_bounds count
  rw [UInt64.toNat_toUInt32, Nat.mod_eq_of_lt (by omega)]

section Space
variable {s : VdecInput} {b : Nat}

theorem queuedSpace_queueChunk (f : Frame) (chunk : VframeChunk) (hb : chunk.block = b) :
    (s.queueChunk f chunk).queuedSpace b =
      s.queuedSpace b + (chunk.size.toNat + chunk.paddingSize.toNat) := by
  unfold VdecInput.queuedSpace
  show tallyAt _ _ _ (s.vframeChunkList ++ [chunk]) = _
  rw [tallyAt_concat, if_pos hb]

theorem queuedSpace_dequeueChunk {c : VframeChunk} (hc : c ∈ s.vframeChunkList)
    (hb : c.block = b) :
    s.queuedSpace b =
      (s.dequeueChunk c).queuedSpace b + (c.size.toNat + c.paddingSize.toNat) := by
  unfold VdecInput.queuedSpace
  show _ = tallyAt _ _ _ (s.vframeChunkList.erase c) + _
  rw [tallyAt_erase _ _ _ hc, if_pos hb]

theorem queuedSpace_nil (h : s.vframeChunkList = []) : s.queuedSpace b = 0 := by
  unfold VdecInput.queuedSpace
  rw [h]
  rfl

end Space

section Blocks
variable {s : VdecInput}

/-- What is not spoken about changed. -/
theorem RingKept.of_same {t : VdecInput} (h : RingKept s) (hdirect : t.Direct ↔ s.Direct)
    (htype : t.type = s.type) (hblocks : t.blocks = s.blocks)
    (hfree : t.vframeBlockFreeList = s.vframeBlockFreeList)
    (hchunks : t.vframeChunkList = s.vframeChunkList) (hseq : t.sequence = s.sequence)
    (hids : t.blockIdSeq = s.blockIdSeq) (hwr : t.wrBlock = s.wrBlock) : RingKept t := by
  have hqueued (b : Nat) : t.queuedSpace b = s.queuedSpace b := by
    unfold VdecInput.queuedSpace
    rw [hchunks]
  constructor
  · exact hdirect.mpr h.direct
  · exact htype.trans h.inputType
  · rw [hseq, hchunks]
    exact h.started
  · rw [hseq, hfree, hids, hblocks]
    exact h.unwritten
  · rw [hseq, hwr]
    exact h.writes
  · rw [hwr, hblocks]
    exact h.type
  · rw [hwr, hblocks]
    exact h.own
  · rw [hwr, hblocks]
    exact h.rp
  · intro b hb
    rw [hblocks, hqueued]
    exact h.wp b (hwr ▸ hb)
  · intro hpos b hb
    rw [hblocks, hqueued]
    exact h.room (hseq ▸ hpos) b (hwr ▸ hb)
  · rw [hwr, hchunks]
    exact h.placed
  · rw [hchunks]
    exact h.padded

/-- The callback of a block does not matter. -/
theorem RingKept.setFree (h : RingKept s) (b : Nat) :
    RingKept (s.setBlock b fun block => { block with free := true }) := by
  have hblock (i : Nat) :
      ((s.setBlock b fun block => { block with free := true }).blocks i).type = (s.blocks i).type ∧
      ((s.setBlock b fun block => { block with free := true }).blocks i).isOutBuf =
        (s.blocks i).isOutBuf ∧
      ((s.setBlock b fun block => { block with free := true }).blocks i).wp = (s.blocks i).wp ∧
      ((s.setBlock b fun block => { block with free := true }).blocks i).rp = (s.blocks i).rp ∧
      ((s.setBlock b fun block => { block with free := true }).blocks i).size =
        (s.blocks i).size := by
    by_cases hi : i = b
    · rw [hi, setBlock_blocks_self]
      exact ⟨rfl, rfl, rfl, rfl, rfl⟩
    · rw [setBlock_blocks_ne _ _ hi]
      exact ⟨rfl, rfl, rfl, rfl, rfl⟩
  refine ⟨h.direct, h.inputType, h.started, ?_, h.writes, ?_, ?_, ?_, ?_, ?_, h.placed, h.padded⟩
  · intro hzero i hi
    obtain ⟨hid, hold⟩ := h.unwritten hzero i hi
    obtain ⟨htype, hown, hwp, hrp, -⟩ := hblock i
    exact ⟨hid, htype.trans hold.type, hown.trans hold.own, hwp.trans hold.wp, hrp.trans hold.rp⟩
  · intro i hi
    rw [(hblock i).1]
    exact h.type i hi
  · intro i hi
    rw [(hblock i).2.1]
    exact h.own i hi
  · intro i hi
    rw [(hblock i).2.2.2.1]
    exact h.rp i hi
  · intro i hi
    rw [(hblock i).2.2.1]
    exact h.wp i hi
  · intro hpos i hi
    rw [(hblock i).2.2.2.2]
    exact h.room hpos i hi

/-- A state without chunks, in which the write block, if there is one, was not written to. -/
theorem ringKept_unstarted (hdirect : s.Direct) (htype : s.type = .frameCircular)
    (hzero : s.sequence = 0) (hempty : s.vframeChunkList = [])
    (hfree : ∀ b ∈ s.vframeBlockFreeList, b < s.blockIdSeq ∧ Unwritten (s.blocks b))
    (hwrite : ∀ b, s.wrBlock = some b → Unwritten (s.blocks b)) : RingKept s := by
  have hnot : ¬ 0 < s.sequence := by omega
  refine ⟨hdirect, htype, ⟨fun _ => hempty, fun _ => hzero⟩, fun _ => hfree,
    fun hpos => absurd hpos hnot, fun b hb => (hwrite b hb).type, fun b hb => (hwrite b hb).own,
    fun b hb => (hwrite b hb).rp, ?_, fun hpos => absurd hpos hnot, ?_, ?_⟩
  · intro b hb
    rw [(hwrite b hb).wp, queuedSpace_nil hempty]
    rfl
  · intro b _ c hc
    rw [hempty] at hc
    exact nomatch hc
  · intro c hc
    rw [hempty] at hc
    exact nomatch hc

theorem initAllocStorage_unwritten {mem : Memory} {block : VframeBlock}
    (htype : s.type = .frameCircular) (h : s.initAllocStorage 0 0 false mem = some block) :
    Unwritten { block with wp := 0 } := by
  unfold VdecInput.initAllocStorage at h
  rw [if_neg (by decide)] at h
  split at h
  · obtain rfl := Option.some.inj h
    exact ⟨htype, rfl, rfl, rfl⟩
  · exact nomatch h

theorem RingKept.addBlock (h : RingKept s) (hzero : s.sequence = 0) {mem : Memory}
    {block : VframeBlock} (hnew : s.initAllocStorage 0 0 false mem = some block) :
    RingKept (s.addBlock block) := by
  have hblock := initAllocStorage_unwritten h.inputType hnew
  refine ringKept_unstarted h.direct h.inputType hzero (h.started.mp hzero) ?_ ?_
  · intro b hb
    obtain ⟨hid, hold⟩ := h.unwritten hzero b hb
    refine ⟨Nat.lt_succ_of_lt hid, ?_⟩
    have hsame : (s.addBlock block).blocks b = s.blocks b := if_neg (Nat.ne_of_lt hid)
    rw [hsame]
    exact hold
  · intro b hb
    obtain rfl : s.blockIdSeq = b := Option.some.inj hb
    rw [addBlock_blocks_new]
    exact hblock

end Blocks

/-- A block was found that is the write block now, or the call fails. -/
def RingFound : VdecInput × Except Errno Nat → Prop
  | (t, .ok b) => RingKept t ∧ t.wrBlock = some b ∧ t.sequence = 0
  | (t, .error _) => RingKept t

section Choose
variable {s : VdecInput} {mem : Memory}

theorem allocFreeBlock_ring (h : RingKept s) (hzero : s.sequence = 0) {size : Int32}
    {r : VdecInput × Except Errno Nat} (hr : s.allocFreeBlock size mem = some r) :
    RingFound r := by
  unfold VdecInput.allocFreeBlock at hr
  split at hr
  · obtain rfl := Option.some.inj hr
    exact h
  · split at hr
    · obtain rfl := Option.some.inj hr
      exact h
    · obtain ⟨defSize, -, rfl⟩ := Option.map_eq_some_iff.mp hr
      have hs : RingKept { s with defaultBlockSize := defSize } :=
        h.of_same Iff.rfl rfl rfl rfl rfl rfl rfl rfl
      have hcases := allocNewBlock_cases { s with defaultBlockSize := defSize } 0 0 false mem
      generalize VdecInput.allocNewBlock _ 0 0 false mem = a at hcases ⊢
      cases hcases with
      | failed errs => exact h.of_same Iff.rfl rfl rfl rfl rfl rfl rfl rfl
      | fresh block hnew =>
        have hadd := hs.addBlock hzero hnew
        exact ⟨hadd.of_same Iff.rfl rfl rfl rfl rfl rfl rfl rfl, rfl, hzero⟩

theorem RingKept.delBlock (h : RingKept s) (hzero : s.sequence = 0) (b : Nat)
    (hwr : s.wrBlock = none) : RingKept (s.delBlockLocked b) :=
  ringKept_unstarted h.direct h.inputType hzero (h.started.mp hzero)
    (fun i hi => h.unwritten hzero i (List.mem_of_mem_erase hi))
    (fun _ hi => nomatch hwr.symm.trans hi)

theorem getFreeBlock_ring (h : RingKept s) (hzero : s.sequence = 0) (hwr : s.wrBlock = none)
    {size : Int32} {r : VdecInput × Except Errno Nat}
    (hr : s.getFreeBlock size mem = some r) : RingFound r := by
  unfold VdecInput.getFreeBlock at hr
  split at hr
  · exact allocFreeBlock_ring h hzero hr
  · rename_i b bs hfree
    have hb : b ∈ s.vframeBlockFreeList := hfree ▸ List.mem_cons_self
    split at hr
    · exact allocFreeBlock_ring (h.delBlock hzero b hwr) hzero hr
    · obtain rfl := Option.some.inj hr
      refine ⟨ringKept_unstarted h.direct h.inputType hzero (h.started.mp hzero) ?_ ?_, rfl, hzero⟩
      · intro i hi
        exact h.unwritten hzero i (List.mem_of_mem_erase hi)
      · intro i hi
        obtain rfl : b = i := Option.some.inj hi
        exact (h.unwritten hzero b hb).2

/-- The space of a block in circles that was written to. -/
theorem vframeBlockSpace_circular {block : VframeBlock} (htype : block.type = .frameCircular)
    (hrp : block.rp = 0) (hwp : block.wp.toNat < block.size.toNat) :
    (vframeBlockSpace block).toNat =
      if block.wp = 0 then 0 else block.size.toNat - block.wp.toNat := by
  have hne : ¬ block.type = .frameBlock := by
    rw [htype]
    decide
  unfold vframeBlockSpace
  rw [if_neg hne, hrp]
  have hsize := block.size.toNat_lt
  by_cases hzero : block.wp = 0
  · rw [if_pos (by rw [hzero]; exact UInt32.le_refl 0), if_pos hzero, hzero]
    rfl
  · have hpos : 0 < block.wp.toNat := by
      rcases Nat.eq_zero_or_pos block.wp.toNat with h0 | hpos
      · exact absurd (UInt32.toNat_inj.mp h0) hzero
      · exact hpos
    have hnot : ¬ (0 : UInt32) ≥ block.wp := fun hge => by
      have hle := UInt32.le_iff_toNat_le.mp hge
      have h0 : (0 : UInt32).toNat = 0 := rfl
      omega
    have hword : UInt32.size = 4294967296 := rfl
    rw [if_neg hnot, if_neg hzero, UInt32.zero_sub, UInt32.toNat_add, UInt32.toNat_neg, hword]
    omega

/-- The block that takes a frame is the write block, with the chunks that were queued. -/
theorem chooseBlock_ring (h : RingKept s) {f : Frame} {r : VdecInput × Except Errno Nat}
    (hr : s.chooseBlock f.count (needPaddingSize f.count) mem = some r) :
    match r with
    | (t, .ok b) => RingKept t ∧ t.wrBlock = some b ∧ t.vframeChunkList = s.vframeChunkList ∧
        (¬ Unchecked s f →
          s.queuedSpace b + (f.count.toNat + (needPaddingSize f.count).toNat) <
            (t.blocks b).size.toNat)
    | (t, .error _) => RingKept t := by
  unfold VdecInput.chooseBlock at hr
  cases hw : s.wrBlock with
  | none =>
    have hzero : s.sequence = 0 := by
      by_contra hne
      exact h.writes (Nat.pos_of_ne_zero hne) hw
    rw [hw] at hr
    have hfound := getFreeBlock_ring h hzero hw hr
    obtain ⟨t, e | b⟩ := r
    · exact hfound
    · obtain ⟨ht, hwr, hseq⟩ := hfound
      have hempty : t.vframeChunkList = s.vframeChunkList :=
        (ht.started.mp hseq).trans (h.started.mp hzero).symm
      exact ⟨ht, hwr, hempty, fun hchecked => absurd (Or.inl hzero) hchecked⟩
  | some b =>
    rw [hw] at hr
    dsimp only at hr
    split at hr
    · rename_i hspace
      obtain rfl := Option.some.inj hr
      refine ⟨h, hw, rfl, fun hchecked => ?_⟩
      obtain ⟨hstarted, hsum⟩ := not_or.mp hchecked
      have hwp := h.wp b hw
      have hroom := h.room (Nat.pos_of_ne_zero hstarted) b hw
      have hspace := UInt64.lt_iff_toNat_lt.mp hspace
      rw [UInt32.toNat_toUInt64,
        vframeBlockSpace_circular (h.type b hw) (h.rp b hw) (by omega), UInt64.toNat_add,
        Nat.mod_eq_of_lt (by omega)] at hspace
      split at hspace
      · exact absurd hspace (Nat.not_lt_zero _)
      · omega
    · split at hr
      · obtain rfl := Option.some.inj hr
        exact h
      · rename_i hnot
        exact absurd (h.type b hw) hnot

end Choose

section Queue
variable {s : VdecInput} {b : Nat}

/-- A chunk that fits moves the write pointer by its size and padding. -/
theorem RingKept.queueChunk (h : RingKept s) (f : Frame) {chunk : VframeChunk}
    (hw : s.wrBlock = some chunk.block) (hpad : 0 < chunk.paddingSize.toNat)
    (hroom : s.queuedSpace chunk.block + (chunk.size.toNat + chunk.paddingSize.toNat) <
      (s.blocks chunk.block).size.toNat) : RingKept (s.queueChunk f chunk) := by
  have hself := queueChunk_blocks_self (s := s) f chunk
  have hold := h.wp chunk.block hw
  have hspace := queuedSpace_queueChunk (s := s) f chunk rfl
  have hblock {i : Nat} (hi : (s.queueChunk f chunk).wrBlock = some i) : chunk.block = i :=
    Option.some.inj hi
  constructor
  · exact h.direct
  · exact h.inputType
  · refine ⟨nofun, fun hnil => ?_⟩
    exact absurd hnil (List.append_ne_nil_of_right_ne_nil _ (List.cons_ne_nil _ _))
  · exact nofun
  · exact nofun
  · intro i hi
    rw [← hblock hi, hself]
    exact h.type _ hw
  · intro i hi
    rw [← hblock hi, hself]
    exact h.own _ hw
  · intro i hi
    rw [← hblock hi, hself]
    exact h.rp _ hw
  · intro i hi
    rw [← hblock hi, hself, blockAddChunk_wp (by omega), hspace, hold, Nat.add_assoc]
  · intro _ i hi
    rw [← hblock hi, (queueChunk_block f chunk chunk.block).1, hspace]
    exact hroom
  · intro i hi c hc
    rw [← hblock hi]
    rcases List.mem_append.mp hc with hc | hc
    · exact h.placed _ hw c hc
    · obtain rfl := List.mem_singleton.mp hc
      rfl
  · intro c hc
    rcases List.mem_append.mp hc with hc | hc
    · exact h.padded c hc
    · obtain rfl := List.mem_singleton.mp hc
      exact hpad

/-- What `vdec_input_add_chunk` leaves: the frame was refused, or queued behind a block choice. -/
inductive RingAdded (s : VdecInput) (f : Frame) (mem : Memory) : VdecInput → Prop
  | refused {t : VdecInput} (kept : RingKept t) (fits : FrameFits s f mem) : RingAdded s f mem t
  | queued {t u : VdecInput} {chunk : VframeChunk}
      (chosen : s.chooseBlock f.count (needPaddingSize f.count) mem = some (t, .ok chunk.block))
      (alloc : mem.chunk = true) (kept : RingKept u) (writes : u.wrBlock = some chunk.block)
      (space : u.queuedSpace chunk.block = s.queuedSpace chunk.block)
      (blockSize : (u.blocks chunk.block).size = (t.blocks chunk.block).size)
      (size : chunk.size = f.count.toUInt32)
      (padding : chunk.paddingSize = (needPaddingSize f.count).toUInt32) :
      RingAdded s f mem (u.queueChunk f chunk)

theorem addChunk_ring (h : RingKept s) {f : Frame} {mem : Memory}
    {r : VdecInput × Except Errno Unit} (hr : s.addChunk f mem = some r) :
    RingAdded s f mem r.1 := by
  unfold VdecInput.addChunk at hr
  rw [if_neg (by rw [h.direct]; decide), if_neg (by rw [h.inputType]; decide)] at hr
  unfold VdecInput.addCopied at hr
  dsimp only at hr
  cases hchoose : s.chooseBlock f.count (needPaddingSize f.count) mem with
  | none =>
    rw [hchoose] at hr
    exact nomatch hr
  | some a =>
    have hring := chooseBlock_ring h hchoose
    rw [hchoose] at hr
    obtain ⟨t, e | b⟩ := a
    · obtain rfl := Option.some.inj hr
      refine .refused hring ?_
      intro t' b' hok
      exact nomatch hchoose.symm.trans hok
    · obtain ⟨ht, hw, hchunks, -⟩ := hring
      dsimp only at hr
      -- setting the callback moves nothing
      have hset : ∃ u, (if f.free then t.setBlock b fun block => { block with free := true }
          else t) = u ∧ RingKept u ∧ u.wrBlock = some b ∧ u.vframeChunkList = s.vframeChunkList ∧
          (u.blocks b).size = (t.blocks b).size := by
        split
        · refine ⟨_, rfl, ht.setFree b, hw, hchunks, ?_⟩
          rw [setBlock_blocks_self]
        · exact ⟨t, rfl, ht, hw, hchunks, rfl⟩
      obtain ⟨u, he, hu, hw', hchunks', hsize'⟩ := hset
      rw [he] at hr
      split at hr
      · rename_i halloc
        obtain rfl := Option.some.inj hr
        refine .queued hchoose halloc hu hw' ?_ hsize' rfl rfl
        unfold VdecInput.queuedSpace
        rw [hchunks']
      · rename_i halloc
        obtain rfl := Option.some.inj hr
        exact .refused hu fun _ _ _ halloc' => absurd halloc' halloc

/-- A release of a queued chunk moves the read pointer by the size alone. -/
theorem releaseChunk_space {c : VframeChunk} {cs : List VframeChunk} {t : VdecInput}
    (h : RingKept s) (hchunks : s.vframeChunkList = c :: cs)
    (hr : s.releaseChunk c.sequence = some t) :
    0 < t.sequence ∧ t.wrBlock = some c.block ∧
      usedSpace (t.blocks c.block) = t.queuedSpace c.block + c.paddingSize.toNat := by
  have hc : c ∈ s.vframeChunkList := hchunks ▸ List.mem_cons_self
  have hpos : 0 < s.sequence := by
    rcases Nat.eq_zero_or_pos s.sequence with hzero | hpos
    · exact absurd (h.started.mp hzero) (hchunks ▸ List.cons_ne_nil _ _)
    · exact hpos
  obtain ⟨b, hw⟩ := Option.ne_none_iff_exists'.mp (h.writes hpos)
  obtain rfl := h.placed b hw c hc
  have hfind : s.vframeChunkList.find? (·.sequence = c.sequence) = some c := by
    rw [hchunks, List.find?_cons_of_pos (by simp)]
  have hself : (s.dequeueChunk c).blocks c.block =
      VdecInput.blockDropChunk (s.blocks c.block) c := dequeueChunk_blocks_self c
  have hspace := queuedSpace_dequeueChunk hc rfl
  have hroom := h.room hpos c.block hw
  have hwp := h.wp c.block hw
  have hsize := (s.blocks c.block).size.toNat_lt
  -- the write block stays where it is
  have hsettle : (s.dequeueChunk c).settleBlock c.block = s.dequeueChunk c := by
    unfold VdecInput.settleBlock
    rw [hself, if_neg (by rw [VdecInput.blockDropChunk, h.own c.block hw]; decide),
      if_neg fun hidle => hidle.2 hw]
  unfold VdecInput.releaseChunk at hr
  rw [hfind] at hr
  dsimp only at hr
  split at hr
  · obtain rfl := Option.some.inj hr
    rw [hsettle]
    refine ⟨hpos, hw, ?_⟩
    have hrp : (VdecInput.blockDropChunk (s.blocks c.block) c).rp = c.size := by
      unfold VdecInput.blockDropChunk
      dsimp only
      rw [h.rp c.block hw, UInt32.zero_add, if_neg]
      exact fun hge => by
        have := UInt32.le_iff_toNat_le.mp hge
        omega
    unfold usedSpace
    rw [hself, hrp]
    show (((s.blocks c.block).wp.toNat : Int) - c.size.toNat) % (s.blocks c.block).size.toNat = _
    rw [Int.emod_eq_of_lt (by omega) (by omega)]
    omega
  · exact nomatch hr

end Queue

section Steps
variable {s t : VdecInput}

theorem RingKept.tracked (h : RingKept s) : RingTracked s := by
  constructor
  · intro hpos b hb
    have hroom := h.room hpos b hb
    refine ⟨hroom, ?_⟩
    unfold usedSpace
    rw [h.rp b hb, h.wp b hb]
    show ((s.queuedSpace b : Int) - 0) % (s.blocks b).size.toNat = _
    rw [Int.sub_zero, Int.emod_eq_of_lt (by omega) (by omega)]
  · intro hpos hempty
    exact absurd (h.started.mpr hempty) (Nat.ne_of_gt hpos)

/-- A frame that the space test of the code let through fits; the others fit by assumption. -/
theorem queued_fits (h : RingKept s) {f : Frame} {mem : Memory} {b : Nat}
    (hok : RingOk s (.addChunk f mem)) (halloc : mem.chunk = true)
    (hchoose : s.chooseBlock f.count (needPaddingSize f.count) mem = some (t, .ok b)) :
    s.queuedSpace b + (f.count.toUInt32.toNat + (needPaddingSize f.count).toUInt32.toNat) <
      (t.blocks b).size.toNat := by
  by_cases hunchecked : Unchecked s f
  · exact hok hunchecked t b hchoose halloc
  · obtain ⟨-, -, -, hroom⟩ := chooseBlock_ring h hchoose
    have hroom := hroom hunchecked
    have hsize := (t.blocks b).size.toNat_lt
    rw [UInt64.toNat_toUInt32, UInt64.toNat_toUInt32, Nat.mod_eq_of_lt (by omega),
      Nat.mod_eq_of_lt (by omega)]
    exact hroom

theorem ringStep_kept (h : RingKept s) {op : RingOp} (hok : RingOk s op)
    (hs : ringStep s op = some t) : RingKept t := by
  cases op with
  | addChunk f mem =>
    obtain ⟨r, hr, rfl⟩ := Option.map_eq_some_iff.mp hs
    have hadded := addChunk_ring h hr
    generalize r.1 = t at hadded
    cases hadded with
    | refused kept fits => exact kept
    | queued chosen alloc kept writes space blockSize size padding =>
      have hbounds := needPaddingSize_bounds f.count
      have hpad := needPaddingSize_toUInt32 f.count
      apply kept.queueChunk f writes
      · rw [padding, hpad]
        omega
      · rw [space, blockSize, size, padding]
        exact queued_fits h hok alloc chosen
  | releaseOldest =>
    unfold ringStep at hs
    have hempty : s.vframeChunkList = [] := hok
    rw [hempty] at hs
    obtain rfl := Option.some.inj hs
    exact h

theorem ringStep_broken (h : RingKept s) {op : RingOp} (hnot : ¬ RingOk s op)
    (hs : ringStep s op = some t) : ¬ RingTracked t := by
  intro htracked
  cases op with
  | addChunk f mem =>
    obtain ⟨-, hnofit⟩ := Classical.not_imp.mp hnot
    obtain ⟨r, hr, rfl⟩ := Option.map_eq_some_iff.mp hs
    have hadded := addChunk_ring h hr
    generalize r.1 = t at hadded htracked
    cases hadded with
    | refused kept fits => exact hnofit fits
    | @queued t u chunk chosen alloc kept writes space blockSize size padding =>
      apply hnofit
      intro t' b hchoose _
      obtain ⟨rfl, hb⟩ := Prod.mk.inj (Option.some.inj (chosen.symm.trans hchoose))
      obtain rfl := Except.ok.inj hb
      have hroom := (htracked.used (Nat.succ_pos _) chunk.block rfl).1
      rw [queuedSpace_queueChunk f chunk rfl, space, size, padding,
        (queueChunk_block f chunk chunk.block).1, blockSize] at hroom
      exact hroom
  | releaseOldest =>
    unfold ringStep at hs
    cases hchunks : s.vframeChunkList with
    | nil => exact hnot hchunks
    | cons c cs =>
      rw [hchunks] at hs
      obtain ⟨hpos, hw, hspace⟩ := releaseChunk_space h hchunks hs
      have hpad := h.padded c (hchunks ▸ List.mem_cons_self)
      have hused := (htracked.used hpos c.block hw).2
      omega

end Steps

section Start
variable {s : VdecInput}

/-- Blocks that are prepared before the first frame were not written to. -/
theorem prepareBufs_ring (h : RingKept s) (hzero : s.sequence = 0) (hw : s.wrBlock = none)
    (support4k : Bool) (mem : Nat → Memory) : RingKept (s.prepareBufs support4k mem) := by
  refine (prepareBufs_keeps (P := fun s => RingKept s ∧ s.sequence = 0 ∧ s.wrBlock = none)
    (fun s n h => ?_) (fun s errs h => ?_) (fun s block mem h hnew => ?_) ⟨h, hzero, hw⟩ support4k mem).1
  · exact ⟨h.1.of_same Iff.rfl rfl rfl rfl rfl rfl rfl rfl, h.2⟩
  · exact ⟨h.1.of_same Iff.rfl rfl rfl rfl rfl rfl rfl rfl, h.2⟩
  · obtain ⟨h, hzero, -⟩ := h
    have hadd := h.addBlock hzero hnew
    refine ⟨ringKept_unstarted h.direct h.inputType hzero (h.started.mp hzero) (fun b hb => ?_)
      fun b hb => (by cases hb), hzero, rfl⟩
    rcases List.mem_append.mp hb with hb | hb
    · exact hadd.unwritten hzero b (List.mem_of_mem_erase hb)
    · obtain rfl := List.mem_singleton.mp hb
      refine ⟨Nat.lt_succ_self _, ?_⟩
      show Unwritten ((s.addBlock block).blocks s.blockIdSeq)
      rw [addBlock_blocks_new]
      exact initAllocStorage_unwritten h.inputType hnew

theorem ringInput_kept (prepared : Option (Bool × (Nat → Memory))) :
    RingKept (ringInput prepared) := by
  have hinit : RingKept (vdecInputInit .frameCircular false false) :=
    ringKept_unstarted rfl rfl rfl rfl nofun nofun
  cases prepared with
  | none => exact hinit
  | some p => exact prepareBufs_ring hinit rfl rfl p.1 p.2

end Start

/-- From the first chunk on the pointers show what is queued exactly as long as nothing is
released, and no frame is larger than the room that the code does not compare it with. -/
theorem ring_tracked_iff (prepared : Option (Bool × (Nat → Memory))) {ops : List RingOp}
    {t : VdecInput} (hr : run ringStep (ringInput prepared) ops = some t) :
    Always ringStep RingTracked (ringInput prepared) ops ↔
      Guarded ringStep RingOk (ringInput prepared) ops :=
  always_iff_guarded (D := fun _ => True) (fun _ h => h.tracked)
    (fun _ _ _ h _ => ringStep_kept h) (fun _ _ _ h _ => ringStep_broken h)
    (ringInput_kept prepared) (fun _ _ => trivial) hr

/-- A frame of 100 bytes, with a padding of 3996. -/
def ringFrame : Frame :=
  { buf := 0, count := 100, handle := 0, free := false, ptsValid := false, pts64 := 0 }

def ringOps : List RingOp := [.addChunk ringFrame ⟨true, true, true⟩, .releaseOldest]

def releasedRing : VdecInput := (run ringStep (ringInput none) ringOps).get (by decide +kernel)

theorem ring_tracked_iff_released :
    Always ringStep RingTracked (ringInput none) ringOps ↔
      Guarded ringStep RingOk (ringInput none) ringOps :=
  ring_tracked_iff none (t := releasedRing) (Option.some_get _).symm

/-- The padding of the frame stays used after its release, and the next frame is refused. -/
theorem released_padding_stays :
    ¬ ∀ (prepared : Option (Bool × (Nat → Memory))) (ops : List RingOp) (t : VdecInput),
      run ringStep (ringInput prepared) ops = some t → RingTracked t := by
  intro hall
  have htracked := hall none ringOps releasedRing (Option.some_get _).symm
  have hw : releasedRing.wrBlock = some 0 := by decide +kernel
  have hpos : 0 < releasedRing.sequence := by decide +kernel
  have hused := (htracked.used hpos 0 hw).2
  revert hused
  decide +kernel

end MediaModules.FrameInput
