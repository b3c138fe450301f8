import MediaModules.FrameInput.Ledger

/-!
# The counters of the frame input

Every call keeps the books; the counters are then what the lists say after any sequence of
calls, as long as the amounts fit the counters.
-/
namespace MediaModules.FrameInput

open MediaModules.Lib.Run
open MediaModules.Lib.Tally

/-- The lists are sound and the counters follow them. -/
structure Books (s : VdecInput) : Prop where
  linked : Linked s
  counted : Counted s

/-- The block can take a chunk. -/
structure Ready (s : VdecInput) (b : Nat) : Prop where
  busy : b ∈ s.vframeBlockList
  alone : ¬ s.Direct → ∀ c ∈ s.vframeChunkList, c.block ≠ b

theorem wrBlock_sameBooks (s : VdecInput) (w : Option Nat) : SameBooks s { s with wrBlock := w } :=
  ⟨Iff.rfl, rfl, rfl, rfl, rfl, rfl, rfl, rfl, rfl, rfl, rfl, fun _ => rfl, fun _ => rfl,
    fun _ => rfl, fun _ => rfl⟩

theorem errors_sameBooks (s : VdecInput) (n : Int32) : SameBooks s { s with noMemErrCnt := n } :=
  ⟨Iff.rfl, rfl, rfl, rfl, rfl, rfl, rfl, rfl, rfl, rfl, rfl, fun _ => rfl, fun _ => rfl,
    fun _ => rfl, fun _ => rfl⟩

theorem defaultSize_sameBooks (s : VdecInput) (n : Int32) :
    SameBooks s { s with defaultBlockSize := n } :=
  ⟨Iff.rfl, rfl, rfl, rfl, rfl, rfl, rfl, rfl, rfl, rfl, rfl, fun _ => rfl, fun _ => rfl,
    fun _ => rfl, fun _ => rfl⟩

/-- What the books do not speak about changed. -/
theorem Books.of_same {s t : VdecInput} (h : Books s) (hs : SameBooks s t)
    (hwr : t.wrBlock = s.wrBlock) : Books t :=
  ⟨hs.linked h.linked (hwr ▸ h.linked.write), hs.counted h.counted⟩

theorem Books.setBlock {s : VdecInput} (h : Books s) (b : Nat) {f : VframeBlock → VframeBlock}
    (hf : ∀ block, (f block).size = block.size ∧ (f block).isOutBuf = block.isOutBuf ∧
      (f block).chunkCount = block.chunkCount ∧ (f block).dataSize = block.dataSize) :
    Books (s.setBlock b f) := h.of_same (setBlock_sameBooks s b hf) rfl

theorem Books.moveToFree {s : VdecInput} {b : Nat} (h : Books s) (hb : Idle s b) :
    Books (s.moveToFree b) :=
  ⟨moveToFree_linked h.linked hb, moveToFree_counted h.counted h.linked hb.linked⟩

theorem Books.delBlock {s : VdecInput} {b : Nat} (h : Books s) (hb : Idle s b) :
    Books (s.delBlockLocked b) :=
  ⟨delBlock_linked h.linked hb, delBlock_counted h.counted h.linked hb.linked⟩

/-- The chunks of a block without any are not in the queue. -/
theorem Books.empty_of_count {s : VdecInput} {b : Nat} (h : Books s) (hb : b ∈ s.linked)
    (hcount : (s.blocks b).chunkCount = 0) : ∀ c ∈ s.vframeChunkList, c.block ≠ b := by
  intro c hc he
  have hzero : s.chunksIn b = 0 := by
    have := h.counted.chunks b hb
    omega
  have hpos := tallyAt_erase VframeChunk.block (fun _ => 1) b hc
  rw [if_pos he] at hpos
  unfold VdecInput.chunksIn at hzero
  omega

theorem Books.idle_of_free {s : VdecInput} {b : Nat} (h : Books s)
    (hb : b ∈ s.vframeBlockFreeList) : Idle s b :=
  ⟨List.mem_append_right _ hb, h.linked.free_idle hb,
    fun hd hw => h.linked.not_busy_of_free hb (h.linked.write hd b hw)⟩

section Alloc
variable {s t : VdecInput} {phyAddr : UInt64} {size : UInt32} {free : Bool} {mem : Memory}

/-- What `vdec_input_alloc_new_block` does: nothing to the books, or a fresh block. -/
inductive Allocated (s : VdecInput) (phyAddr : UInt64) (size : UInt32) (free : Bool)
    (mem : Memory) : VdecInput × Option Nat → Prop
  | failed (errs : Int32) :
      Allocated s phyAddr size free mem ({ s with noMemErrCnt := errs }, none)
  | fresh (block : VframeBlock) (h : s.initAllocStorage phyAddr size free mem = some block) :
      Allocated s phyAddr size free mem (s.addBlock block, some s.blockIdSeq)

theorem allocNewBlock_cases (s : VdecInput) (phyAddr : UInt64) (size : UInt32) (free : Bool)
    (mem : Memory) :
    Allocated s phyAddr size free mem (s.allocNewBlock phyAddr size free mem) := by
  unfold VdecInput.allocNewBlock
  split
  · cases h : s.initAllocStorage phyAddr size free mem with
    | none => exact .failed s.noMemErrCnt
    | some block => exact .fresh block h
  · exact .failed _

theorem initAllocStorage_new {block : VframeBlock}
    (h : s.initAllocStorage phyAddr size free mem = some block) :
    block.chunkCount = 0 ∧ block.dataSize = 0 ∧ block.type = s.type ∧
      (phyAddr = 0 → block.isOutBuf = false ∧
        block.size = align32 s.defaultBlockSize.toUInt32 4096) := by
  unfold VdecInput.initAllocStorage at h
  split at h
  · rename_i hphy
    obtain rfl := Option.some.inj h
    exact ⟨rfl, rfl, rfl, fun h0 => absurd h0 hphy⟩
  · split at h
    · obtain rfl := Option.some.inj h
      exact ⟨rfl, rfl, rfl, fun _ => ⟨rfl, rfl⟩⟩
    · exact nomatch h

theorem addBlock_books (h : Books s) {block : VframeBlock}
    (hnew : s.initAllocStorage phyAddr size free mem = some block)
    (howner : s.Direct → phyAddr = 0) : Books (s.addBlock block) := by
  obtain ⟨hchunks, hdata, -, hown⟩ := initAllocStorage_new hnew
  exact ⟨addBlock_linked h.linked fun hd => (hown (howner hd)).1,
    addBlock_counted h.counted h.linked hchunks hdata⟩

theorem addBlock_ready (h : Books s) (block : VframeBlock) :
    Ready (s.addBlock block) s.blockIdSeq :=
  ⟨List.mem_append_right _ (List.mem_singleton_self _), fun _ _ hc he =>
    Nat.lt_irrefl _ (he ▸ h.linked.fresh _ (h.linked.queued_linked hc))⟩

end Alloc

/-- A block was found, or the call fails with the books unharmed. -/
def Found (s : VdecInput) : VdecInput × Except Errno Nat → Prop
  | (t, .ok b) => Books t ∧ Ready t b ∧ (t.Direct ↔ s.Direct)
  | (t, .error _) => Books t

section Choose
variable {s : VdecInput} {mem : Memory}

theorem allocFreeBlock_found (h : Books s) (size : Int32)
    {r : VdecInput × Except Errno Nat} (hr : s.allocFreeBlock size mem = some r) : Found s r := by
  unfold VdecInput.allocFreeBlock at hr
  split at hr
  · obtain rfl := Option.some.inj hr
    exact h
  · split at hr
    · obtain rfl := Option.some.inj hr
      exact h
    · obtain ⟨defSize, -, rfl⟩ := Option.map_eq_some_iff.mp hr
      have hs : Books { s with defaultBlockSize := defSize } :=
        h.of_same (defaultSize_sameBooks s defSize) rfl
      have hcases :=
        allocNewBlock_cases { s with defaultBlockSize := defSize } 0 0 false mem
      generalize VdecInput.allocNewBlock _ 0 0 false mem = a at hcases ⊢
      cases hcases with
      | failed errs => exact hs.of_same (errors_sameBooks _ (errs + 1)) rfl
      | fresh block hnew =>
        have hb := addBlock_books hs hnew fun _ => rfl
        have hready := addBlock_ready hs block
        exact ⟨hb.of_same (errors_sameBooks _ 0) rfl, ⟨hready.busy, hready.alone⟩, Iff.rfl⟩

theorem getFreeBlock_found (h : Books s) (hd : s.Direct) (size : Int32)
    {r : VdecInput × Except Errno Nat} (hr : s.getFreeBlock size mem = some r) : Found s r := by
  unfold VdecInput.getFreeBlock at hr
  cases hfree : s.vframeBlockFreeList with
  | nil =>
    rw [hfree] at hr
    exact allocFreeBlock_found h size hr
  | cons b bs =>
    have hb : b ∈ s.vframeBlockFreeList := hfree ▸ List.mem_cons_self
    rw [hfree] at hr
    dsimp only at hr
    split at hr
    · exact allocFreeBlock_found (s := s.delBlockLocked b) (h.delBlock (h.idle_of_free hb))
        size hr
    · obtain rfl := Option.some.inj hr
      have hlink : b ∈ s.linked := List.mem_append_right _ hb
      have hbusy : b ∈ (s.moveToBusy b).vframeBlockList :=
        List.mem_append_right _ (List.mem_singleton_self b)
      have hmoved : Books (s.moveToBusy b) :=
        ⟨moveToBusy_linked h.linked hlink, moveToBusy_counted h.counted h.linked hlink⟩
      have hsame := wrBlock_sameBooks (s.moveToBusy b) (some b)
      refine ⟨⟨hsame.linked hmoved.linked fun _ x hx => ?_, hsame.counted hmoved.counted⟩,
        ⟨hbusy, fun hn => absurd hd hn⟩, Iff.rfl⟩
      exact Option.some.inj hx ▸ hbusy

theorem recycle_books (h : Books s) (hd : s.Direct) {b : Nat} (hw : s.wrBlock = some b) :
    Books (s.recycle b) := by
  unfold VdecInput.recycle
  split
  · rename_i hcount
    have hlink : b ∈ s.linked := List.mem_append_left _ (h.linked.write hd b hw)
    have hset : Books (s.setBlock b fun block => { block with rp := 0, wp := 0 }) :=
      h.setBlock b fun _ => ⟨rfl, rfl, rfl, rfl⟩
    -- the write block is given up first, then the block is idle
    have hsame := wrBlock_sameBooks
      (s.setBlock b fun block => { block with rp := 0, wp := 0 }) none
    have hs : Books { s.setBlock b fun block => { block with rp := 0, wp := 0 } with
        wrBlock := none } :=
      ⟨hsame.linked hset.linked fun _ _ hx => (nomatch hx), hsame.counted hset.counted⟩
    exact hs.moveToFree ⟨hlink, h.empty_of_count hlink hcount, fun _ hx => nomatch hx⟩
  · exact h

theorem recycle_direct (s : VdecInput) (b : Nat) : (s.recycle b).Direct ↔ s.Direct := by
  unfold VdecInput.recycle
  split
  · exact Iff.rfl
  · exact Iff.rfl

theorem chooseBlock_found (h : Books s) (hd : s.Direct) (count padding : UInt64)
    {r : VdecInput × Except Errno Nat} (hr : s.chooseBlock count padding mem = some r) :
    Found s r := by
  unfold VdecInput.chooseBlock at hr
  cases hw : s.wrBlock with
  | none =>
    rw [hw] at hr
    exact getFreeBlock_found h hd _ hr
  | some b =>
    rw [hw] at hr
    dsimp only at hr
    split at hr
    · obtain rfl := Option.some.inj hr
      exact ⟨h, ⟨h.linked.write hd b hw, fun hn => absurd hd hn⟩, Iff.rfl⟩
    · split at hr
      · obtain rfl := Option.some.inj hr
        exact h
      · have hf := getFreeBlock_found (recycle_books h hd hw)
          ((recycle_direct s b).mpr hd) _ hr
        revert hf
        match r with
        | (t, .ok b') => exact fun hf => ⟨hf.1, hf.2.1, hf.2.2.trans (recycle_direct s b)⟩
        | (t, .error _) => exact id

end Choose

section Calls
variable {s : VdecInput}

theorem queueChunk_books (h : Books s) (f : Frame) (hf : f.count < 4294967296) {b : Nat}
    (hb : Ready s b) (offset padding : UInt32) :
    Books (s.queueChunk f (s.newChunk f b offset padding)) := by
  have hcount : UInt64.ofNat f.count.toUInt32.toNat = f.count := by
    have hlt : f.count.toNat < 4294967296 := UInt64.lt_iff_toNat_lt.mp hf
    rw [UInt64.toNat_toUInt32, Nat.mod_eq_of_lt hlt, UInt64.ofNat_toNat]
  exact ⟨queueChunk_linked h.linked f _ hb.busy hb.alone,
    queueChunk_counted h.counted f _ hcount⟩

theorem Ready.setBlock {b : Nat} (h : Ready s b) (i : Nat) (f : VframeBlock → VframeBlock) :
    Ready (s.setBlock i f) b := ⟨h.busy, h.alone⟩

theorem addOutBuf_books (h : Books s) (hd : ¬ s.Direct) (f : Frame) (hf : f.count < 4294967296)
    (mem : Memory) : Books (s.addOutBuf f mem).1 := by
  unfold VdecInput.addOutBuf
  dsimp only
  have hcases := allocNewBlock_cases s f.buf
    (pageAlign64 (f.count + hevcPaddingSize + 1)).toUInt32 f.free mem
  generalize s.allocNewBlock f.buf _ f.free mem = a at hcases ⊢
  cases hcases with
  | failed errs => exact h.of_same (errors_sameBooks s errs) rfl
  | fresh block hnew =>
    have hadd := addBlock_books h hnew fun hd' => absurd hd' hd
    have hset := hadd.setBlock s.blockIdSeq
      (f := fun block => { block with handle := f.handle }) fun _ => ⟨rfl, rfl, rfl, rfl⟩
    have hready := (addBlock_ready h block).setBlock s.blockIdSeq
      fun block => { block with handle := f.handle }
    dsimp only
    split
    · exact queueChunk_books hset f hf hready _ _
    · exact hset

theorem addCopied_books (h : Books s) (hd : s.Direct) (f : Frame) (hf : f.count < 4294967296)
    (mem : Memory) {r : VdecInput × Except Errno Unit} (hr : s.addCopied f mem = some r) :
    Books r.1 := by
  unfold VdecInput.addCopied at hr
  dsimp only at hr
  cases hchoose : s.chooseBlock f.count (needPaddingSize f.count) mem with
  | none =>
    rw [hchoose] at hr
    exact nomatch hr
  | some a =>
    have hfound := chooseBlock_found h hd f.count (needPaddingSize f.count) hchoose
    rw [hchoose] at hr
    obtain ⟨t, e | b⟩ := a
    · obtain rfl := Option.some.inj hr
      exact hfound
    · obtain ⟨ht, hready, -⟩ := hfound
      dsimp only at hr
      have hset : Books (if f.free then t.setBlock b fun block => { block with free := true }
            else t) ∧
          Ready (if f.free then t.setBlock b fun block => { block with free := true } else t) b := by
        split
        · exact ⟨ht.setBlock b fun _ => ⟨rfl, rfl, rfl, rfl⟩, hready.setBlock b _⟩
        · exact ⟨ht, hready⟩
      split at hr
      · obtain rfl := Option.some.inj hr
        exact queueChunk_books hset.1 f hf hset.2 _ _
      · obtain rfl := Option.some.inj hr
        exact hset.1

theorem addChunk_books (h : Books s) (f : Frame) (hf : f.count < 4294967296) (mem : Memory)
    {r : VdecInput × Except Errno Unit} (hr : s.addChunk f mem = some r) : Books r.1 := by
  unfold VdecInput.addChunk at hr
  split at hr
  · rename_i hflags
    obtain rfl := Option.some.inj hr
    refine addOutBuf_books h (fun hd => ?_) f hf mem
    rw [VdecInput.Direct, hflags] at hd
    exact nomatch hd
  · rename_i hflags
    split at hr
    · obtain rfl := Option.some.inj hr
      exact h
    · exact addCopied_books h (Bool.eq_false_iff.mpr hflags) f hf mem hr

/-- The block of a released chunk keeps no other chunk of a caller's buffer. -/
theorem dequeued_empty (h : Linked s) (hd : ¬ s.Direct) {chunk : VframeChunk}
    (hc : chunk ∈ s.vframeChunkList) :
    ∀ c ∈ (s.dequeueChunk chunk).vframeChunkList, c.block ≠ chunk.block := by
  intro c hc' he
  have hperm := (List.perm_cons_erase hc).map VframeChunk.block
  have hnodup := hperm.nodup_iff.mp (h.alone hd)
  rw [List.map_cons, List.nodup_cons] at hnodup
  exact hnodup.1 (he ▸ List.mem_map_of_mem hc')

theorem settleBlock_books (h : Books s) {b : Nat} (hb : b ∈ s.linked)
    (hempty : ¬ s.Direct → (s.blocks b).isOutBuf = true → ∀ c ∈ s.vframeChunkList, c.block ≠ b) :
    Books (s.settleBlock b) := by
  unfold VdecInput.settleBlock
  split
  · rename_i hout
    have hd : ¬ s.Direct := fun hd => by
      rw [h.linked.own hd b hb] at hout
      exact nomatch hout
    have hidle : Idle s b := ⟨hb, hempty hd hout, fun hd' => absurd hd' hd⟩
    have hmoved := h.moveToFree hidle
    split
    · exact hmoved.delBlock (hmoved.idle_of_free
        (List.mem_append_right _ (List.mem_singleton_self b)))
    · exact hmoved
  · split
    · rename_i hcount
      have hidle : Idle s b := ⟨hb, h.empty_of_count hb hcount.1, fun _ => hcount.2⟩
      split
      · exact h.delBlock hidle
      · have hset := h.setBlock b (f := fun block => { block with rp := 0, wp := 0 })
          fun _ => ⟨rfl, rfl, rfl, rfl⟩
        exact hset.moveToFree ⟨hb, hidle.empty, hidle.unwritten⟩
    · exact h

theorem releaseChunk_books (h : Books s) (sequence : Nat) :
    ∃ t, s.releaseChunk sequence = some t ∧ Books t := by
  unfold VdecInput.releaseChunk
  cases hfind : s.vframeChunkList.find? (·.sequence = sequence) with
  | none => exact ⟨s, rfl, h⟩
  | some chunk =>
    have hc := List.mem_of_find?_eq_some hfind
    have hb := h.linked.queued_linked hc
    have hdeq : Books (s.dequeueChunk chunk) :=
      ⟨dequeueChunk_linked h.linked chunk, dequeueChunk_counted h.counted hc⟩
    dsimp only
    rw [if_pos hb]
    exact ⟨_, rfl, settleBlock_books hdeq hb fun hd _ => dequeued_empty h.linked hd hc⟩

theorem prepared_books (h : Books s) {block : VframeBlock} {mem : Memory}
    (hnew : s.initAllocStorage 0 0 false mem = some block) :
    Books { (s.addBlock block).moveToFree s.blockIdSeq with wrBlock := none } := by
  have hadd := addBlock_books h hnew fun _ => rfl
  have hready := addBlock_ready h block
  have hsame := wrBlock_sameBooks (s.addBlock block) none
  have hs : Books { s.addBlock block with wrBlock := none } :=
    ⟨hsame.linked hadd.linked fun _ _ hx => (nomatch hx), hsame.counted hadd.counted⟩
  have hempty : ∀ c ∈ s.vframeChunkList, c.block ≠ s.blockIdSeq := fun c hc he =>
    Nat.lt_irrefl _ (he ▸ h.linked.fresh _ (h.linked.queued_linked hc))
  exact hs.moveToFree (b := s.blockIdSeq)
    ⟨List.mem_append_left _ hready.busy, hempty, fun _ hx => (nomatch hx)⟩

/-- What setting the block size, counting a failed allocation and preparing a block keep. -/
theorem prepareBufs_keeps {P : VdecInput → Prop}
    (hsize : ∀ s n, P s → P { s with defaultBlockSize := n })
    (hfail : ∀ s errs, P s → P { s with noMemErrCnt := errs })
    (hfresh : ∀ s block mem, P s → s.initAllocStorage 0 0 false mem = some block →
      P { (s.addBlock block).moveToFree s.blockIdSeq with wrBlock := none })
    (h : P s) (support4k : Bool) (mem : Nat → Memory) : P (s.prepareBufs support4k mem) := by
  have hloop (n : Nat) {s : VdecInput} (h : P s) : P (VdecInput.prepareLoop mem n s) := by
    induction n generalizing s with
    | zero => exact h
    | succ n ih =>
      unfold VdecInput.prepareLoop
      have hcases := allocNewBlock_cases s 0 0 false (mem n)
      generalize s.allocNewBlock 0 0 false (mem n) = a at hcases ⊢
      cases hcases with
      | failed errs => exact hfail s errs h
      | fresh block hnew => exact ih (hfresh s block (mem n) h hnew)
  unfold VdecInput.prepareBufs
  split
  · exact h
  · split
    · exact h
    · split
      · exact hloop 3 (hsize s _ h)
      · exact hloop 3 h

theorem prepareBufs_books (h : Books s) (support4k : Bool) (mem : Nat → Memory) :
    Books (s.prepareBufs support4k mem) :=
  prepareBufs_keeps (fun s n h => h.of_same (defaultSize_sameBooks s n) rfl)
    (fun s errs h => h.of_same (errors_sameBooks s errs) rfl) (fun _ _ _ h hnew => prepared_books h hnew)
    h support4k mem

theorem freedHandleLoop_books (bs : List Nat) (h : Books s) (hbs : s.vframeBlockFreeList = bs) :
    Books (VdecInput.freedHandleLoop bs s).1 := by
  induction bs generalizing s with
  | nil => exact h
  | cons b bs ih =>
    have hdel := h.delBlock (h.idle_of_free (hbs ▸ List.mem_cons_self))
    unfold VdecInput.freedHandleLoop
    split
    · apply ih hdel
      show s.vframeBlockFreeList.erase b = bs
      rw [hbs, List.erase_cons_head]
    · exact hdel

theorem getFreedHandle_books (h : Books s) : Books s.getFreedHandle.1 := by
  unfold VdecInput.getFreedHandle
  split
  · exact freedHandleLoop_books _ h rfl
  · exact h

end Calls

/-- A frame has less than `limit` bytes. -/
def Op.Below (limit : UInt64) : Op → Prop
  | .addChunk f _ => f.count < limit
  | _ => True

theorem step_books {s t : VdecInput} {op : Op} (h : Books s) (hop : op.Below 4294967296)
    (hs : step s op = some t) : Books t := by
  cases op with
  | addChunk f mem =>
    obtain ⟨r, hr, rfl⟩ := Option.map_eq_some_iff.mp hs
    exact addChunk_books h f hop mem hr
  | releaseChunk sequence =>
    obtain ⟨t', ht, hbooks⟩ := releaseChunk_books h sequence
    obtain rfl := Option.some.inj (ht.symm.trans hs)
    exact hbooks
  | prepareBufs support4k mem =>
    obtain rfl := Option.some.inj hs
    exact prepareBufs_books h support4k mem
  | getFreedHandle =>
    obtain rfl := Option.some.inj hs
    exact getFreedHandle_books h

theorem init_books (type : InputType) (secure dmabuf : Bool) :
    Books (vdecInputInit type secure dmabuf) :=
  ⟨⟨fun _ hb => (nomatch hb), List.nodup_nil, fun _ hc => (nomatch hc),
    fun _ _ hb => (nomatch hb), fun _ _ hw => (nomatch hw), fun _ => List.nodup_nil⟩,
    ⟨rfl, rfl, rfl, fun _ hb => (nomatch hb), fun _ hb => (nomatch hb), rfl, rfl⟩⟩

/-- The counters are the numbers they stand for. -/
structure CountersExact (s : VdecInput) : Prop where
  frames : s.haveFrameNum = s.vframeChunkList.length
  data : s.dataSize.toInt = s.queuedBytes
  level : (s.totalWrCount - s.totalRdCount).toNat = s.queuedBytes
  chunks : ∀ b ∈ s.linked, (s.blocks b).chunkCount = s.chunksIn b
  bytes : ∀ b ∈ s.linked, (s.blocks b).dataSize.toInt = s.bytesIn b
  nums : s.blockNums = s.linked.length
  size : s.size.toNat = s.blockBytes

theorem Counted.exact {s : VdecInput} (h : Counted s) (hq : s.queuedBytes < 2 ^ 31)
    (hb : s.blockBytes < 2 ^ 32) : CountersExact s := by
  refine ⟨h.frames, ?_, ?_, h.chunks, ?_, h.nums, ?_⟩
  · rw [h.data, Int32.toInt_ofNat_of_lt hq]
  · have hsub : s.totalWrCount - s.totalRdCount = UInt64.ofNat s.queuedBytes := by
      have := h.level
      grind
    have hfit : s.queuedBytes < 2 ^ 64 := by omega
    rw [hsub, UInt64.toNat_ofNat_of_lt' hfit]
  · intro b hm
    have hle : s.bytesIn b ≤ s.queuedBytes := tallyAt_le _ _ _ _
    rw [h.bytes b hm, Int32.toInt_ofNat_of_lt (by omega)]
  · rw [h.size, UInt32.toNat_ofNat_of_lt' hb]

/-- After every call the counters are those of the lists, in their own widths: exactly while
fewer than 2 GiB are queued and the blocks have less than 4 GiB. A frame has less than 4 GiB, as
the callers' 32-bit counts have it. The block of a queued chunk is
never freed: the next release finds it. -/
theorem counters_follow_lists (type : InputType) (secure dmabuf : Bool) {ops : List Op}
    (hops : ∀ op ∈ ops, op.Below 4294967296) :
    Always step (fun s => Counted s ∧ (s.queuedBytes < 2 ^ 31 → s.blockBytes < 2 ^ 32 →
        CountersExact s) ∧ ∀ sequence, ∃ t, s.releaseChunk sequence = some t)
      (vdecInputInit type secure dmabuf) ops := by
  refine Always.imp (P := Books) (fun s h => ?_)
    (always_of_domain (fun s op t => step_books) hops (init_books type secure dmabuf))
  refine ⟨h.counted, h.counted.exact, fun sequence => ?_⟩
  obtain ⟨t, ht, -⟩ := releaseChunk_books h sequence
  exact ⟨t, ht⟩

/-- A frame of 2 GiB in a caller's buffer. -/
def hugeFrame : Frame :=
  { buf := 4096, count := 2147483648, handle := 1, free := true, ptsValid := false, pts64 := 0 }

theorem counters_follow_lists_mixed :
    Always step (fun s => Counted s ∧ (s.queuedBytes < 2 ^ 31 → s.blockBytes < 2 ^ 32 →
        CountersExact s) ∧ ∀ sequence, ∃ t, s.releaseChunk sequence = some t)
      (vdecInputInit .frameBlock true false)
      [.addChunk hugeFrame ⟨true, true, true⟩, .releaseChunk 0, .getFreedHandle] :=
  counters_follow_lists .frameBlock true false (by
    intro op hop
    simp only [List.mem_cons, List.not_mem_nil, or_false] at hop
    rcases hop with rfl | rfl | rfl
    · show hugeFrame.count < 4294967296
      decide
    · trivial
    · trivial)

/-- One such frame makes `data_size` negative. -/
theorem data_size_wraps :
    ¬ Always step CountersExact (vdecInputInit .frameBlock true false)
      [.addChunk hugeFrame ⟨true, true, true⟩] := by
  intro h
  have hdata := (h.2 _ rfl).data
  revert hdata
  decide

end MediaModules.FrameInput
