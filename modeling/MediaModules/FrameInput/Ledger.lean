import Mathlib.Data.List.Nodup
import MediaModules.FrameInput.Input
import MediaModules.Lib.NodeLists
import MediaModules.Lib.Run
import MediaModules.Lib.Tally

/-!
# The books of the frame input

Five counters repeat what the lists hold. Each list move and each counter update keeps them
in step; the calls are composed of these.
-/
namespace MediaModules.FrameInput

open MediaModules.Lib.NodeLists
open MediaModules.Lib.Run
open MediaModules.Lib.Tally

namespace VdecInput

/-- The bytes of all queued chunks. -/
def queuedBytes (s : VdecInput) : Nat := tally (fun c => c.size.toNat) s.vframeChunkList

/-- The number of queued chunks of block `b`. -/
def chunksIn (s : VdecInput) (b : Nat) : Nat :=
  tallyAt VframeChunk.block (fun _ => 1) b s.vframeChunkList

/-- The bytes of the queued chunks of block `b`. -/
def bytesIn (s : VdecInput) (b : Nat) : Nat :=
  tallyAt VframeChunk.block (fun c => c.size.toNat) b s.vframeChunkList

/-- The bytes of all blocks. -/
def blockBytes (s : VdecInput) : Nat := tally (fun b => (s.blocks b).size.toNat) s.linked

/-- The input owns the memory of its blocks. -/
def Direct (s : VdecInput) : Prop := (s.secure || s.dmabuf) = false

end VdecInput

/-- The counters are those of the lists. -/
structure Counted (s : VdecInput) : Prop where
  frames : s.haveFrameNum = s.vframeChunkList.length
  data : s.dataSize = Int32.ofNat s.queuedBytes
  level : s.totalWrCount = s.totalRdCount + UInt64.ofNat s.queuedBytes
  chunks : ∀ b ∈ s.linked, (s.blocks b).chunkCount = s.chunksIn b
  bytes : ∀ b ∈ s.linked, (s.blocks b).dataSize = Int32.ofNat (s.bytesIn b)
  nums : s.blockNums = s.linked.length
  size : s.size = UInt32.ofNat s.blockBytes

/-- The lists are those of live blocks. -/
structure Linked (s : VdecInput) : Prop where
  fresh : ∀ b ∈ s.linked, b < s.blockIdSeq
  nodup : s.linked.Nodup
  /-- a queued chunk is in a block of the block list -/
  queued : ∀ c ∈ s.vframeChunkList, c.block ∈ s.vframeBlockList
  own : s.Direct → ∀ b ∈ s.linked, (s.blocks b).isOutBuf = false
  write : s.Direct → ∀ b, s.wrBlock = some b → b ∈ s.vframeBlockList
  /-- a caller's buffer holds one chunk -/
  alone : ¬ s.Direct → (s.vframeChunkList.map VframeChunk.block).Nodup

namespace Linked

variable {s : VdecInput}

theorem queued_linked (h : Linked s) {c : VframeChunk} (hc : c ∈ s.vframeChunkList) :
    c.block ∈ s.linked := List.mem_append_left _ (h.queued c hc)

theorem free_idle (h : Linked s) {b : Nat} (hb : b ∈ s.vframeBlockFreeList) :
    ∀ c ∈ s.vframeChunkList, c.block ≠ b := fun c hc he =>
  (List.nodup_append.mp h.nodup).2.2 c.block (h.queued c hc) b hb he

theorem not_busy_of_free (h : Linked s) {b : Nat} (hb : b ∈ s.vframeBlockFreeList) :
    b ∉ s.vframeBlockList := fun hx => (List.nodup_append.mp h.nodup).2.2 b hx b hb rfl

end Linked

/-- No chunk is in the block and no frame will be written to it. -/
structure Idle (s : VdecInput) (b : Nat) : Prop where
  linked : b ∈ s.linked
  empty : ∀ c ∈ s.vframeChunkList, c.block ≠ b
  unwritten : s.Direct → s.wrBlock ≠ some b

/-- The lists and the chunks are the same, and every block has the same size, owner and
counters. -/
structure SameBooks (s t : VdecInput) : Prop where
  direct : t.Direct ↔ s.Direct
  blockList : t.vframeBlockList = s.vframeBlockList
  freeList : t.vframeBlockFreeList = s.vframeBlockFreeList
  chunkList : t.vframeChunkList = s.vframeChunkList
  seq : t.blockIdSeq = s.blockIdSeq
  frames : t.haveFrameNum = s.haveFrameNum
  data : t.dataSize = s.dataSize
  wr : t.totalWrCount = s.totalWrCount
  rd : t.totalRdCount = s.totalRdCount
  nums : t.blockNums = s.blockNums
  size : t.size = s.size
  blockSize : ∀ b, (t.blocks b).size = (s.blocks b).size
  blockOwner : ∀ b, (t.blocks b).isOutBuf = (s.blocks b).isOutBuf
  blockChunks : ∀ b, (t.blocks b).chunkCount = (s.blocks b).chunkCount
  blockBytes : ∀ b, (t.blocks b).dataSize = (s.blocks b).dataSize

namespace SameBooks

variable {s t : VdecInput}

theorem linked_eq (h : SameBooks s t) : t.linked = s.linked := by
  unfold VdecInput.linked
  rw [h.blockList, h.freeList]

theorem counted (h : SameBooks s t) (hc : Counted s) : Counted t := by
  have hq : t.queuedBytes = s.queuedBytes := by
    unfold VdecInput.queuedBytes
    rw [h.chunkList]
  refine ⟨?_, ?_, ?_, ?_, ?_, ?_, ?_⟩
  · rw [h.frames, h.chunkList, hc.frames]
  · rw [h.data, hq, hc.data]
  · rw [h.wr, h.rd, hq, hc.level]
  · intro b hb
    rw [h.linked_eq] at hb
    unfold VdecInput.chunksIn
    rw [h.blockChunks, h.chunkList]
    exact hc.chunks b hb
  · intro b hb
    rw [h.linked_eq] at hb
    unfold VdecInput.bytesIn
    rw [h.blockBytes, h.chunkList]
    exact hc.bytes b hb
  · rw [h.nums, h.linked_eq, hc.nums]
  · unfold VdecInput.blockBytes
    rw [h.size, h.linked_eq, tally_congr _ fun b _ => congrArg UInt32.toNat (h.blockSize b)]
    exact hc.size

/-- The write block may change to another one of the block list. -/
theorem linked (h : SameBooks s t) (hl : Linked s)
    (hwr : s.Direct → ∀ b, t.wrBlock = some b → b ∈ s.vframeBlockList) : Linked t := by
  refine ⟨?_, ?_, ?_, ?_, ?_, ?_⟩
  · rw [h.linked_eq, h.seq]
    exact hl.fresh
  · rw [h.linked_eq]
    exact hl.nodup
  · rw [h.chunkList, h.blockList]
    exact hl.queued
  · intro hd b hb
    rw [h.linked_eq] at hb
    rw [h.blockOwner]
    exact hl.own (h.direct.mp hd) b hb
  · intro hd
    rw [h.blockList]
    exact hwr (h.direct.mp hd)
  · intro hd
    rw [h.chunkList]
    exact hl.alone fun hd' => hd (h.direct.mpr hd')

end SameBooks

theorem setBlock_sameBooks (s : VdecInput) (b : Nat) {f : VframeBlock → VframeBlock}
    (hf : ∀ block, (f block).size = block.size ∧ (f block).isOutBuf = block.isOutBuf ∧
      (f block).chunkCount = block.chunkCount ∧ (f block).dataSize = block.dataSize) :
    SameBooks s (s.setBlock b f) := by
  have hblock (i : Nat) : ((s.setBlock b f).blocks i).size = (s.blocks i).size ∧
      ((s.setBlock b f).blocks i).isOutBuf = (s.blocks i).isOutBuf ∧
      ((s.setBlock b f).blocks i).chunkCount = (s.blocks i).chunkCount ∧
      ((s.setBlock b f).blocks i).dataSize = (s.blocks i).dataSize := by
    unfold VdecInput.setBlock
    dsimp only
    split
    · exact hf _
    · exact ⟨rfl, rfl, rfl, rfl⟩
  exact ⟨Iff.rfl, rfl, rfl, rfl, rfl, rfl, rfl, rfl, rfl, rfl, rfl, fun i => (hblock i).1,
    fun i => (hblock i).2.1, fun i => (hblock i).2.2.1, fun i => (hblock i).2.2.2⟩

/-- The blocks are linked in another order. -/
theorem Counted.of_perm {s t : VdecInput} (hc : Counted s) (hp : t.linked.Perm s.linked)
    (hblocks : t.blocks = s.blocks) (hchunks : t.vframeChunkList = s.vframeChunkList)
    (hframes : t.haveFrameNum = s.haveFrameNum) (hdata : t.dataSize = s.dataSize)
    (hlevel : t.totalWrCount = s.totalWrCount ∧ t.totalRdCount = s.totalRdCount)
    (hnums : t.blockNums = s.blockNums) (hsize : t.size = s.size) : Counted t := by
  have hq : t.queuedBytes = s.queuedBytes := by
    unfold VdecInput.queuedBytes
    rw [hchunks]
  refine ⟨?_, ?_, ?_, ?_, ?_, ?_, ?_⟩
  · rw [hframes, hchunks, hc.frames]
  · rw [hdata, hq, hc.data]
  · rw [hlevel.1, hlevel.2, hq, hc.level]
  · intro b hb
    unfold VdecInput.chunksIn
    rw [hblocks, hchunks]
    exact hc.chunks b (hp.mem_iff.mp hb)
  · intro b hb
    unfold VdecInput.bytesIn
    rw [hblocks, hchunks]
    exact hc.bytes b (hp.mem_iff.mp hb)
  · rw [hnums, hp.length_eq, hc.nums]
  · unfold VdecInput.blockBytes
    rw [hsize, hblocks, tally_perm _ hp]
    exact hc.size

section Moves
variable {s : VdecInput} {b : Nat}

theorem moveToFree_counted (hc : Counted s) (hl : Linked s) (hb : b ∈ s.linked) :
    Counted (s.moveToFree b) :=
  hc.of_perm (move_back_perm hl.nodup hb) rfl rfl rfl rfl ⟨rfl, rfl⟩ rfl rfl

theorem moveToBusy_counted (hc : Counted s) (hl : Linked s) (hb : b ∈ s.linked) :
    Counted (s.moveToBusy b) :=
  hc.of_perm (move_front_perm hl.nodup hb) rfl rfl rfl rfl ⟨rfl, rfl⟩ rfl rfl

theorem moveToFree_linked (hl : Linked s) (hb : Idle s b) : Linked (s.moveToFree b) := by
  have hp : (s.moveToFree b).linked.Perm s.linked := move_back_perm hl.nodup hb.linked
  have hmem {x : Nat} (hx : x ∈ s.vframeBlockList) (hne : x ≠ b) :
      x ∈ (s.moveToFree b).vframeBlockList := (List.mem_erase_of_ne hne).mpr hx
  refine ⟨fun x hx => hl.fresh x (hp.mem_iff.mp hx), hp.nodup_iff.mpr hl.nodup, ?_, ?_, ?_,
    hl.alone⟩
  · intro c hc
    exact hmem (hl.queued c hc) (hb.empty c hc)
  · intro hd x hx
    exact hl.own hd x (hp.mem_iff.mp hx)
  · intro hd x hx
    exact hmem (hl.write hd x hx) fun he => hb.unwritten hd (he ▸ hx)

theorem moveToBusy_linked (hl : Linked s) (hb : b ∈ s.linked) : Linked (s.moveToBusy b) := by
  have hp : (s.moveToBusy b).linked.Perm s.linked := move_front_perm hl.nodup hb
  have hmem {x : Nat} (hx : x ∈ s.vframeBlockList) : x ∈ (s.moveToBusy b).vframeBlockList := by
    show x ∈ s.vframeBlockList.erase b ++ [b]
    by_cases he : x = b
    · rw [he]
      exact List.mem_append_right _ (List.mem_singleton_self b)
    · exact List.mem_append_left _ ((List.mem_erase_of_ne he).mpr hx)
  exact ⟨fun x hx => hl.fresh x (hp.mem_iff.mp hx), hp.nodup_iff.mpr hl.nodup,
    fun c hc => hmem (hl.queued c hc), fun hd x hx => hl.own hd x (hp.mem_iff.mp hx),
    fun hd x hx => hmem (hl.write hd x hx), hl.alone⟩

theorem delBlock_linked_perm (hl : Linked s) (b : Nat) :
    (s.delBlockLocked b).linked.Perm (s.linked.erase b) := erase_both_perm hl.nodup b

theorem delBlock_linked (hl : Linked s) (hb : Idle s b) : Linked (s.delBlockLocked b) := by
  have hp := delBlock_linked_perm hl b
  have hsub {x : Nat} (hx : x ∈ (s.delBlockLocked b).linked) : x ∈ s.linked :=
    List.mem_of_mem_erase (hp.mem_iff.mp hx)
  have hmem {x : Nat} (hx : x ∈ s.vframeBlockList) (hne : x ≠ b) :
      x ∈ (s.delBlockLocked b).vframeBlockList := (List.mem_erase_of_ne hne).mpr hx
  refine ⟨fun x hx => hl.fresh x (hsub hx), hp.nodup_iff.mpr (hl.nodup.erase b), ?_, ?_, ?_,
    hl.alone⟩
  · intro c hc
    exact hmem (hl.queued c hc) (hb.empty c hc)
  · intro hd x hx
    exact hl.own hd x (hsub hx)
  · intro hd x hx
    exact hmem (hl.write hd x hx) fun he => hb.unwritten hd (he ▸ hx)

theorem delBlock_counted (hc : Counted s) (hl : Linked s) (hb : b ∈ s.linked) :
    Counted (s.delBlockLocked b) := by
  have hp := delBlock_linked_perm hl b
  have hsub {x : Nat} (hx : x ∈ (s.delBlockLocked b).linked) : x ∈ s.linked :=
    List.mem_of_mem_erase (hp.mem_iff.mp hx)
  have hlen : s.linked.length = (s.delBlockLocked b).linked.length + 1 := by
    rw [hp.length_eq, List.length_erase_of_mem hb]
    have := List.length_pos_of_mem hb
    omega
  have hbytes : s.blockBytes = (s.delBlockLocked b).blockBytes + (s.blocks b).size.toNat := by
    show tally _ s.linked = tally _ (s.delBlockLocked b).linked + _
    rw [tally_perm _ hp]
    exact tally_erase _ hb
  refine ⟨hc.frames, hc.data, hc.level, fun x hx => hc.chunks x (hsub hx),
    fun x hx => hc.bytes x (hsub hx), ?_, ?_⟩
  · show s.blockNums - 1 = _
    rw [hc.nums, hlen]
    omega
  · show s.size - (s.blocks b).size = _
    rw [hc.size, hbytes, UInt32.ofNat_add, UInt32.ofNat_toNat]
    grind

end Moves

section Add
variable {s : VdecInput} {block : VframeBlock}

theorem addBlock_blocks_of_linked (hl : Linked s) {b : Nat} (hb : b ∈ s.linked) :
    (s.addBlock block).blocks b = s.blocks b := if_neg (Nat.ne_of_lt (hl.fresh b hb))

theorem addBlock_blocks_new : (s.addBlock block).blocks s.blockIdSeq = { block with wp := 0 } :=
  if_pos rfl

theorem addBlock_linked_perm :
    (s.addBlock block).linked.Perm (s.blockIdSeq :: s.linked) := by
  show ((s.vframeBlockList ++ [s.blockIdSeq]) ++ s.vframeBlockFreeList).Perm _
  rw [List.append_assoc]
  exact List.perm_middle

theorem addBlock_linked (hl : Linked s) (howner : s.Direct → block.isOutBuf = false) :
    Linked (s.addBlock block) := by
  have hnew : s.blockIdSeq ∉ s.linked := fun h => Nat.lt_irrefl _ (hl.fresh _ h)
  have hmem {x : Nat} (hx : x ∈ (s.addBlock block).linked) : x = s.blockIdSeq ∨ x ∈ s.linked :=
    List.mem_cons.mp (addBlock_linked_perm.mem_iff.mp hx)
  refine ⟨?_, ?_, ?_, ?_, ?_, hl.alone⟩
  · intro x hx
    show x < s.blockIdSeq + 1
    rcases hmem hx with rfl | hx
    · exact Nat.lt_succ_self _
    · exact Nat.lt_succ_of_lt (hl.fresh x hx)
  · rw [addBlock_linked_perm.nodup_iff]
    exact List.nodup_cons.mpr ⟨hnew, hl.nodup⟩
  · intro c hc
    exact List.mem_append_left _ (hl.queued c hc)
  · intro hd x hx
    rcases hmem hx with rfl | hx
    · rw [addBlock_blocks_new]
      exact howner hd
    · rw [addBlock_blocks_of_linked hl hx]
      exact hl.own hd x hx
  · intro hd x hx
    obtain rfl : s.blockIdSeq = x := Option.some.inj hx
    exact List.mem_append_right _ (List.mem_singleton_self _)

theorem addBlock_counted (hc : Counted s) (hl : Linked s) (hchunks : block.chunkCount = 0)
    (hdata : block.dataSize = 0) : Counted (s.addBlock block) := by
  have hnew : s.blockIdSeq ∉ s.linked := fun h => Nat.lt_irrefl _ (hl.fresh _ h)
  have hempty : ∀ c ∈ s.vframeChunkList, c.block ≠ s.blockIdSeq := fun c hc he =>
    hnew (he ▸ hl.queued_linked hc)
  have hmem {x : Nat} (hx : x ∈ (s.addBlock block).linked) : x = s.blockIdSeq ∨ x ∈ s.linked :=
    List.mem_cons.mp (addBlock_linked_perm.mem_iff.mp hx)
  refine ⟨hc.frames, hc.data, hc.level, ?_, ?_, ?_, ?_⟩
  · intro x hx
    rcases hmem hx with rfl | hx
    · rw [addBlock_blocks_new]
      show block.chunkCount = tallyAt _ _ _ s.vframeChunkList
      rw [hchunks, tallyAt_eq_zero _ _ _ hempty]
      rfl
    · rw [addBlock_blocks_of_linked hl hx]
      exact hc.chunks x hx
  · intro x hx
    rcases hmem hx with rfl | hx
    · rw [addBlock_blocks_new]
      show block.dataSize = Int32.ofNat (tallyAt _ _ _ s.vframeChunkList)
      rw [hdata, tallyAt_eq_zero _ _ _ hempty]
      rfl
    · rw [addBlock_blocks_of_linked hl hx]
      exact hc.bytes x hx
  · show s.blockNums + 1 = _
    rw [hc.nums, addBlock_linked_perm.length_eq, List.length_cons]
    rfl
  · have hold : tally (fun b => ((s.addBlock block).blocks b).size.toNat) s.linked =
        s.blockBytes := tally_congr _ fun b hb => by rw [addBlock_blocks_of_linked hl hb]
    have hbytes : (s.addBlock block).blockBytes = block.size.toNat + s.blockBytes := by
      unfold VdecInput.blockBytes
      rw [tally_perm _ addBlock_linked_perm]
      show ((s.addBlock block).blocks s.blockIdSeq).size.toNat + tally _ s.linked = _
      rw [addBlock_blocks_new, hold]
      rfl
    show s.size + block.size = _
    rw [hbytes, hc.size, UInt32.ofNat_add, UInt32.ofNat_toNat, UInt32.add_comm]

end Add

section Chunks
variable {s : VdecInput}

theorem setBlock_blocks_self (s : VdecInput) (b : Nat) (f : VframeBlock → VframeBlock) :
    (s.setBlock b f).blocks b = f (s.blocks b) := if_pos rfl

theorem setBlock_blocks_ne (s : VdecInput) {b i : Nat} (f : VframeBlock → VframeBlock)
    (h : i ≠ b) : (s.setBlock b f).blocks i = s.blocks i := if_neg h

theorem toInt32_eq_ofNat (x : UInt32) : x.toInt32 = Int32.ofNat x.toNat := by
  conv_lhs => rw [← UInt32.ofNat_toNat (x := x)]
  exact UInt32.toInt32_ofNat'

theorem queueChunk_blocks_self (f : Frame) (chunk : VframeChunk) :
    (s.queueChunk f chunk).blocks chunk.block =
      VdecInput.blockAddChunk (s.blocks chunk.block) chunk := if_pos rfl

theorem queueChunk_blocks_ne (f : Frame) {chunk : VframeChunk} {b : Nat} (h : b ≠ chunk.block) :
    (s.queueChunk f chunk).blocks b = s.blocks b := if_neg h

theorem dequeueChunk_blocks_self (chunk : VframeChunk) :
    (s.dequeueChunk chunk).blocks chunk.block =
      VdecInput.blockDropChunk (s.blocks chunk.block) chunk := if_pos rfl

theorem dequeueChunk_blocks_ne {chunk : VframeChunk} {b : Nat} (h : b ≠ chunk.block) :
    (s.dequeueChunk chunk).blocks b = s.blocks b := if_neg h

/-- Neither moves the size or the owner of a block. -/
theorem queueChunk_block (f : Frame) (chunk : VframeChunk) (b : Nat) :
    ((s.queueChunk f chunk).blocks b).size = (s.blocks b).size ∧
      ((s.queueChunk f chunk).blocks b).isOutBuf = (s.blocks b).isOutBuf := by
  by_cases hb : b = chunk.block
  · rw [hb, queueChunk_blocks_self]
    exact ⟨rfl, rfl⟩
  · rw [queueChunk_blocks_ne _ hb]
    exact ⟨rfl, rfl⟩

theorem dequeueChunk_block (chunk : VframeChunk) (b : Nat) :
    ((s.dequeueChunk chunk).blocks b).size = (s.blocks b).size ∧
      ((s.dequeueChunk chunk).blocks b).isOutBuf = (s.blocks b).isOutBuf := by
  by_cases hb : b = chunk.block
  · rw [hb, dequeueChunk_blocks_self]
    exact ⟨rfl, rfl⟩
  · rw [dequeueChunk_blocks_ne hb]
    exact ⟨rfl, rfl⟩

theorem queueChunk_counted (hc : Counted s) (f : Frame) (chunk : VframeChunk)
    (hsize : UInt64.ofNat chunk.size.toNat = f.count) : Counted (s.queueChunk f chunk) := by
  have hbytes : (s.queueChunk f chunk).queuedBytes = s.queuedBytes + chunk.size.toNat :=
    tally_concat _ _ _
  refine ⟨?_, ?_, ?_, ?_, ?_, hc.nums, ?_⟩
  · show s.haveFrameNum + 1 = ((s.vframeChunkList ++ [chunk]).length : Int)
    rw [List.length_append, hc.frames]
    rfl
  · show s.dataSize + chunk.size.toInt32 = _
    rw [hbytes, Int32.ofNat_add, hc.data, toInt32_eq_ofNat]
  · show s.totalWrCount + f.count = s.totalRdCount + _
    rw [hbytes, UInt64.ofNat_add, hsize, hc.level, UInt64.add_assoc]
  · intro b hb
    have hcount : (s.queueChunk f chunk).chunksIn b =
        s.chunksIn b + if chunk.block = b then 1 else 0 := tallyAt_concat _ _ _ _ _
    rw [hcount]
    by_cases he : chunk.block = b
    · subst he
      rw [queueChunk_blocks_self, if_pos rfl]
      show (s.blocks _).chunkCount + 1 = _
      rw [hc.chunks _ hb]
      rfl
    · rw [queueChunk_blocks_ne _ (Ne.symm he), if_neg he]
      exact hc.chunks b hb
  · intro b hb
    have hcount : (s.queueChunk f chunk).bytesIn b =
        s.bytesIn b + if chunk.block = b then chunk.size.toNat else 0 := tallyAt_concat _ _ _ _ _
    rw [hcount]
    by_cases he : chunk.block = b
    · subst he
      rw [queueChunk_blocks_self, if_pos rfl, Int32.ofNat_add]
      show (s.blocks _).dataSize + chunk.size.toInt32 = _
      rw [hc.bytes _ hb, toInt32_eq_ofNat]
    · rw [queueChunk_blocks_ne _ (Ne.symm he), if_neg he]
      exact hc.bytes b hb
  · have hsame : (s.queueChunk f chunk).blockBytes = s.blockBytes :=
      tally_congr _ fun b _ => congrArg UInt32.toNat (queueChunk_block f chunk b).1
    rw [hsame]
    exact hc.size

theorem queueChunk_linked (hl : Linked s) (f : Frame) (chunk : VframeChunk)
    (hblock : chunk.block ∈ s.vframeBlockList)
    (halone : ¬ s.Direct → ∀ c ∈ s.vframeChunkList, c.block ≠ chunk.block) :
    Linked (s.queueChunk f chunk) := by
  refine ⟨hl.fresh, hl.nodup, ?_, ?_, ?_, ?_⟩
  · intro c hc
    rcases List.mem_append.mp hc with hc | hc
    · exact hl.queued c hc
    · obtain rfl := List.mem_singleton.mp hc
      exact hblock
  · intro hd b hb
    rw [(queueChunk_block f chunk b).2]
    exact hl.own hd b hb
  · intro _ b hb
    obtain rfl : chunk.block = b := Option.some.inj hb
    exact hblock
  · intro hd
    show ((s.vframeChunkList ++ [chunk]).map VframeChunk.block).Nodup
    rw [List.map_append, List.nodup_append]
    refine ⟨hl.alone hd, List.nodup_singleton _, ?_⟩
    intro x hx y hy
    obtain ⟨c, hc, rfl⟩ := List.mem_map.mp hx
    obtain rfl := List.mem_singleton.mp hy
    exact halone hd c hc

theorem dequeueChunk_counted (hc : Counted s) {chunk : VframeChunk}
    (hmem : chunk ∈ s.vframeChunkList) : Counted (s.dequeueChunk chunk) := by
  have hbytes : s.queuedBytes = (s.dequeueChunk chunk).queuedBytes + chunk.size.toNat :=
    tally_erase _ hmem
  refine ⟨?_, ?_, ?_, ?_, ?_, hc.nums, ?_⟩
  · show s.haveFrameNum - 1 = ((s.vframeChunkList.erase chunk).length : Int)
    rw [hc.frames, List.length_erase_of_mem hmem]
    have := List.length_pos_of_mem hmem
    omega
  · show s.dataSize - chunk.size.toInt32 = _
    rw [hc.data, hbytes, Int32.ofNat_add, toInt32_eq_ofNat]
    grind
  · show s.totalWrCount = s.totalRdCount + chunk.size.toUInt64 + _
    have hchunk : chunk.size.toUInt64 = UInt64.ofNat chunk.size.toNat := by
      rw [← UInt32.toNat_toUInt64, UInt64.ofNat_toNat]
    rw [hc.level, hbytes, UInt64.ofNat_add, hchunk]
    grind
  · intro b hb
    have hcount : s.chunksIn b =
        (s.dequeueChunk chunk).chunksIn b + if chunk.block = b then 1 else 0 :=
      tallyAt_erase _ _ _ hmem
    have hold := hc.chunks b hb
    rw [hcount] at hold
    by_cases he : chunk.block = b
    · subst he
      rw [dequeueChunk_blocks_self]
      show (s.blocks _).chunkCount - 1 = _
      rw [if_pos rfl] at hold
      omega
    · rw [dequeueChunk_blocks_ne (Ne.symm he)]
      rw [if_neg he] at hold
      exact hold
  · intro b hb
    have hcount : s.bytesIn b =
        (s.dequeueChunk chunk).bytesIn b + if chunk.block = b then chunk.size.toNat else 0 :=
      tallyAt_erase _ _ _ hmem
    have hold := hc.bytes b hb
    rw [hcount] at hold
    by_cases he : chunk.block = b
    · subst he
      rw [dequeueChunk_blocks_self]
      show (s.blocks _).dataSize - chunk.size.toInt32 = _
      rw [hold, if_pos rfl, Int32.ofNat_add, toInt32_eq_ofNat]
      grind
    · rw [dequeueChunk_blocks_ne (Ne.symm he)]
      rw [if_neg he] at hold
      exact hold
  · have hsame : (s.dequeueChunk chunk).blockBytes = s.blockBytes :=
      tally_congr _ fun b _ => congrArg UInt32.toNat (dequeueChunk_block chunk b).1
    rw [hsame]
    exact hc.size

theorem dequeueChunk_linked (hl : Linked s) (chunk : VframeChunk) :
    Linked (s.dequeueChunk chunk) := by
  refine ⟨hl.fresh, hl.nodup, fun c hc => hl.queued c (List.mem_of_mem_erase hc), ?_, hl.write, ?_⟩
  · intro hd b hb
    rw [(dequeueChunk_block chunk b).2]
    exact hl.own hd b hb
  · intro hd
    exact ((List.erase_sublist).map _).nodup (hl.alone hd)

end Chunks

end MediaModules.FrameInput
