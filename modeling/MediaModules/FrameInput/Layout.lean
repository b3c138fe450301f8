import MediaModules.FrameInput.Counters

/-!
# Where the chunks lie in their blocks

A frame input that owns its blocks and does not use them in circles: the write pointer of a
block only grows while the block is in use, and it starts from zero.
-/
namespace MediaModules.FrameInput

open MediaModules.Lib.Run

/-- The first byte behind the chunk and its padding. -/
def VframeChunk.endOffset (c : VframeChunk) : Nat :=
  c.offset.toNat + c.size.toNat + c.paddingSize.toNat

/-- The chunks lie below the write pointers of their blocks, one behind the other. -/
structure Laid (s : VdecInput) : Prop where
  direct : s.Direct
  inputType : s.type = .frameBlock
  type : ∀ b ∈ s.linked, (s.blocks b).type = .frameBlock
  room : ∀ b ∈ s.linked, (s.blocks b).wp.toNat ≤ (s.blocks b).size.toNat
  free : ∀ b ∈ s.vframeBlockFreeList, (s.blocks b).wp = 0
  inside : ∀ c ∈ s.vframeChunkList, c.endOffset ≤ (s.blocks c.block).wp.toNat
  apart : s.vframeChunkList.Pairwise fun c d => c.block = d.block → c.endOffset ≤ d.offset.toNat

section Words

theorem toNat_toUInt32 {x : Int32} (h : 0 ≤ x.toInt) : (x.toUInt32.toNat : Int) = x.toInt := by
  have hle : (0 : Int32) ≤ x := Int32.le_iff_toInt_le.mpr (by simpa using h)
  rw [Int32.toNat_toUInt32_of_le hle]
  exact Int.toNat_of_nonneg h

theorem toInt_toInt32 {x : UInt32} (h : x.toNat < 2 ^ 31) : x.toInt32.toInt = x.toNat := by
  rw [toInt32_eq_ofNat, Int32.toInt_ofNat_of_lt h]

theorem align32_toNat (x a : UInt32) (ha : 0 < a.toNat) (hfit : x.toNat + a.toNat ≤ 2 ^ 32) :
    (align32 x a).toNat = (x.toNat + (a.toNat - 1)) / a.toNat * a.toNat := by
  have hpred : (a - 1).toNat = a.toNat - 1 :=
    UInt32.toNat_sub_of_le _ _ (UInt32.le_iff_toNat_le.mpr ha)
  have hsum : (x + (a - 1)).toNat = x.toNat + (a.toNat - 1) := by
    rw [UInt32.toNat_add, hpred]
    omega
  have hle := Nat.div_mul_le_self (x.toNat + (a.toNat - 1)) a.toNat
  unfold align32
  rw [UInt32.toNat_mul, UInt32.toNat_div, hsum]
  exact Nat.mod_eq_of_lt (by omega)

/-- `ALIGN` does not make a size smaller. -/
theorem le_align32 (x a : UInt32) (ha : 0 < a.toNat) (hfit : x.toNat + a.toNat ≤ 2 ^ 32) :
    x.toNat ≤ (align32 x a).toNat := by
  have hdiv := Nat.div_add_mod (x.toNat + (a.toNat - 1)) a.toNat
  have hmod := Nat.mod_lt (x.toNat + (a.toNat - 1)) ha
  rw [align32_toNat x a ha hfit, Nat.mul_comm]
  omega

/-- The padding of a frame is some 64 to 4160 bytes. -/
theorem needPaddingSize_bounds (count : UInt64) :
    64 ≤ (needPaddingSize count).toNat ∧ (needPaddingSize count).toNat ≤ 4160 := by
  unfold needPaddingSize
  split
  · rename_i hlt
    have hlt : count.toNat < 4096 := UInt64.lt_iff_toNat_lt.mp hlt
    have hpage : (pageAlign64 (count + minFramePaddingSize)).toNat =
        (count.toNat + 64 + 4095) / 4096 * 4096 := by
      unfold pageAlign64 minFramePaddingSize
      simp only [UInt64.toNat_mul, UInt64.toNat_div, UInt64.toNat_add, UInt64.reduceToNat]
      omega
    rw [UInt64.toNat_sub_of_le _ _ (UInt64.le_iff_toNat_le.mpr (by omega)), hpage]
    omega
  · split
    · have hle : (count % 64).toNat < 64 := by
        rw [UInt64.toNat_mod]
        exact Nat.mod_lt _ (by decide)
      have hmod : (64 - count % 64).toNat ≤ 64 := by
        rw [UInt64.toNat_sub_of_le _ _ (UInt64.le_iff_toNat_le.mpr (Nat.le_of_lt hle))]
        exact Nat.sub_le _ _
      have hpad : (minFramePaddingSize : UInt64).toNat = 64 := rfl
      rw [UInt64.toNat_add, hpad]
      omega
    · exact ⟨by decide, by decide⟩

/-- What a frame asks of a block, as the `int` that `vdec_input_get_free_block` gets. -/
theorem request_toInt {count padding : UInt64} (hc : count.toNat < 2 ^ 29)
    (hp : padding.toNat ≤ 4160) :
    (count + padding + extraPaddingSize).toUInt32.toInt32.toInt =
      count.toNat + padding.toNat + 16384 := by
  have hsum : (count + padding + extraPaddingSize).toUInt32.toNat =
      count.toNat + padding.toNat + 16384 := by
    unfold extraPaddingSize
    simp only [UInt64.toNat_toUInt32, UInt64.toNat_add, UInt64.reduceToNat]
    omega
  rw [toInt_toInt32 (by omega), hsum]
  rfl

theorem le_nextDefaultSize {size defaultBlockSize d : Int32} (hpos : 0 < size.toInt)
    (hsize : size.toInt < 2 ^ 30) (h : nextDefaultSize size defaultBlockSize = some d) :
    size.toInt ≤ d.toInt := by
  unfold nextDefaultSize at h
  split at h
  · obtain ⟨grown, -, rfl⟩ := Option.map_eq_some_iff.mp h
    split
    · have hadd : (size + 64).toInt = size.toInt + 64 := by
        rw [Int32.toInt_add]
        show (size.toInt + 64).bmod (2 ^ 32) = _
        exact Int.bmod_eq_of_le_mul_two (by omega) (by omega)
      have hnat : ((size + 64).toUInt32.toNat : Int) = size.toInt + 64 := by
        rw [toNat_toUInt32 (by omega), hadd]
      have ha : (131072 : UInt32).toNat = 131072 := rfl
      have hge := le_align32 (size + 64).toUInt32 131072 (by decide) (by omega)
      have hval := align32_toNat (size + 64).toUInt32 131072 (by decide) (by omega)
      have hle := Nat.div_mul_le_self
        ((size + 64).toUInt32.toNat + ((131072 : UInt32).toNat - 1)) (131072 : UInt32).toNat
      rw [toInt_toInt32 (by omega)]
      omega
    · rename_i hle
      exact Int32.le_iff_toInt_le.mp (Int32.not_lt.mp hle)
  · rename_i hlt
    obtain rfl := Option.some.inj h
    have hdouble : (size * 2).toInt = size.toInt * 2 := by
      rw [Int32.toInt_mul]
      show (size.toInt * 2).bmod (2 ^ 32) = _
      exact Int.bmod_eq_of_le_mul_two (by omega) (by omega)
    have hlt' := Int32.lt_iff_toInt_lt.mp (Int32.not_le.mp hlt)
    omega

end Words

section Moves
variable {s : VdecInput} {b : Nat}

theorem Laid.setBlock (h : Laid s) (b : Nat) {f : VframeBlock → VframeBlock}
    (hf : ∀ block, (f block).type = block.type ∧ (f block).wp = block.wp ∧
      (f block).size = block.size) : Laid (s.setBlock b f) := by
  have hblock (i : Nat) : ((s.setBlock b f).blocks i).type = (s.blocks i).type ∧
      ((s.setBlock b f).blocks i).wp = (s.blocks i).wp ∧
      ((s.setBlock b f).blocks i).size = (s.blocks i).size := by
    by_cases hi : i = b
    · rw [hi, setBlock_blocks_self]
      exact hf _
    · rw [setBlock_blocks_ne _ _ hi]
      exact ⟨rfl, rfl, rfl⟩
  refine ⟨h.direct, h.inputType, ?_, ?_, ?_, ?_, h.apart⟩
  · intro i hi
    rw [(hblock i).1]
    exact h.type i hi
  · intro i hi
    rw [(hblock i).2.1, (hblock i).2.2]
    exact h.room i hi
  · intro i hi
    rw [(hblock i).2.1]
    exact h.free i hi
  · intro c hc
    rw [(hblock c.block).2.1]
    exact h.inside c hc

/-- The write pointer of an idle block goes back to the start. -/
theorem Laid.reset (h : Laid s) (hb : Idle s b) :
    Laid (s.setBlock b fun block => { block with rp := 0, wp := 0 }) := by
  refine ⟨h.direct, h.inputType, ?_, ?_, ?_, ?_, h.apart⟩
  · intro i hi
    by_cases he : i = b
    · rw [he, setBlock_blocks_self]
      exact h.type b hb.linked
    · rw [setBlock_blocks_ne _ _ he]
      exact h.type i hi
  · intro i hi
    by_cases he : i = b
    · rw [he, setBlock_blocks_self]
      exact Nat.zero_le _
    · rw [setBlock_blocks_ne _ _ he]
      exact h.room i hi
  · intro i hi
    by_cases he : i = b
    · rw [he, setBlock_blocks_self]
    · rw [setBlock_blocks_ne _ _ he]
      exact h.free i hi
  · intro c hc
    rw [setBlock_blocks_ne _ _ (hb.empty c hc)]
    exact h.inside c hc

theorem Laid.moveToFree (h : Laid s) (hl : Linked s) (hb : b ∈ s.linked)
    (hwp : (s.blocks b).wp = 0) : Laid (s.moveToFree b) := by
  have hp : (s.moveToFree b).linked.Perm s.linked :=
    MediaModules.Lib.NodeLists.move_back_perm hl.nodup hb
  refine ⟨h.direct, h.inputType, fun i hi => h.type i (hp.mem_iff.mp hi),
    fun i hi => h.room i (hp.mem_iff.mp hi), ?_, h.inside, h.apart⟩
  intro i hi
  rcases List.mem_append.mp hi with hi | hi
  · exact h.free i (List.mem_of_mem_erase hi)
  · obtain rfl := List.mem_singleton.mp hi
    exact hwp

theorem Laid.moveToBusy (h : Laid s) (hl : Linked s) (hb : b ∈ s.linked) :
    Laid (s.moveToBusy b) := by
  have hp : (s.moveToBusy b).linked.Perm s.linked :=
    MediaModules.Lib.NodeLists.move_front_perm hl.nodup hb
  exact ⟨h.direct, h.inputType, fun i hi => h.type i (hp.mem_iff.mp hi),
    fun i hi => h.room i (hp.mem_iff.mp hi), fun i hi => h.free i (List.mem_of_mem_erase hi),
    h.inside, h.apart⟩

theorem Laid.delBlock (h : Laid s) (hl : Linked s) (b : Nat) : Laid (s.delBlockLocked b) := by
  have hsub {i : Nat} (hi : i ∈ (s.delBlockLocked b).linked) : i ∈ s.linked :=
    List.mem_of_mem_erase ((delBlock_linked_perm hl b).mem_iff.mp hi)
  exact ⟨h.direct, h.inputType, fun i hi => h.type i (hsub hi), fun i hi => h.room i (hsub hi),
    fun i hi => h.free i (List.mem_of_mem_erase hi), h.inside, h.apart⟩

theorem Laid.addBlock (h : Laid s) (hl : Linked s) {block : VframeBlock}
    (htype : block.type = s.type) : Laid (s.addBlock block) := by
  have hmem {i : Nat} (hi : i ∈ (s.addBlock block).linked) : i = s.blockIdSeq ∨ i ∈ s.linked :=
    List.mem_cons.mp (addBlock_linked_perm.mem_iff.mp hi)
  refine ⟨h.direct, h.inputType, ?_, ?_, ?_, ?_, h.apart⟩
  · intro i hi
    rcases hmem hi with rfl | hi
    · rw [addBlock_blocks_new]
      exact htype.trans h.inputType
    · rw [addBlock_blocks_of_linked hl hi]
      exact h.type i hi
  · intro i hi
    rcases hmem hi with rfl | hi
    · rw [addBlock_blocks_new]
      exact Nat.zero_le _
    · rw [addBlock_blocks_of_linked hl hi]
      exact h.room i hi
  · intro i hi
    rw [addBlock_blocks_of_linked hl (List.mem_append_right _ hi)]
    exact h.free i hi
  · intro c hc
    rw [addBlock_blocks_of_linked hl (hl.queued_linked hc)]
    exact h.inside c hc

theorem blockAddChunk_wp {block : VframeBlock} {chunk : VframeChunk}
    (hroom : block.wp.toNat + chunk.size.toNat + chunk.paddingSize.toNat < block.size.toNat) :
    (VdecInput.blockAddChunk block chunk).wp.toNat =
      block.wp.toNat + chunk.size.toNat + chunk.paddingSize.toNat := by
  have hsize := block.size.toNat_lt
  have hlen : (chunk.size + chunk.paddingSize).toNat =
      chunk.size.toNat + chunk.paddingSize.toNat := by
    rw [UInt32.toNat_add]
    omega
  have hsum : (block.wp + (chunk.size + chunk.paddingSize)).toNat =
      block.wp.toNat + chunk.size.toNat + chunk.paddingSize.toNat := by
    rw [UInt32.toNat_add, hlen]
    omega
  have hlt : ¬ block.wp + (chunk.size + chunk.paddingSize) ≥ block.size := fun hge => by
    have := UInt32.le_iff_toNat_le.mp hge
    omega
  unfold VdecInput.blockAddChunk
  dsimp only
  rw [if_neg hlt, hsum]

/-- A chunk that fits goes behind all others of its block. -/
theorem Laid.queueChunk (h : Laid s) (hl : Linked s) (f : Frame) {chunk : VframeChunk}
    (hb : chunk.block ∈ s.vframeBlockList) (hoff : chunk.offset = (s.blocks chunk.block).wp)
    (hroom : (s.blocks chunk.block).wp.toNat + chunk.size.toNat + chunk.paddingSize.toNat <
      (s.blocks chunk.block).size.toNat) : Laid (s.queueChunk f chunk) := by
  have hself := queueChunk_blocks_self (s := s) f chunk
  have hwp := blockAddChunk_wp hroom
  have hother {i : Nat} (hi : i ≠ chunk.block) :
      (s.queueChunk f chunk).blocks i = s.blocks i := queueChunk_blocks_ne f hi
  have hfree {i : Nat} (hi : i ∈ s.vframeBlockFreeList) : i ≠ chunk.block := fun he =>
    hl.not_busy_of_free (he ▸ hi) hb
  refine ⟨h.direct, h.inputType, ?_, ?_, ?_, ?_, ?_⟩
  · intro i hi
    by_cases he : i = chunk.block
    · rw [he, hself]
      exact h.type _ (List.mem_append_left _ hb)
    · rw [hother he]
      exact h.type i hi
  · intro i hi
    rw [(queueChunk_block f chunk i).1]
    by_cases he : i = chunk.block
    · rw [he, hself, hwp]
      exact Nat.le_of_lt hroom
    · rw [hother he]
      exact h.room i hi
  · intro i hi
    rw [hother (hfree hi)]
    exact h.free i hi
  · intro c hc
    rcases List.mem_append.mp hc with hc | hc
    · have hold := h.inside c hc
      by_cases he : c.block = chunk.block
      · rw [he, hself, hwp]
        rw [he] at hold
        omega
      · rw [hother he]
        exact hold
    · obtain rfl := List.mem_singleton.mp hc
      rw [hself, hwp]
      unfold VframeChunk.endOffset
      rw [hoff]
  · show (s.vframeChunkList ++ [chunk]).Pairwise _
    refine List.pairwise_append.mpr ⟨h.apart, List.pairwise_singleton _ _, ?_⟩
    intro c hc d hd he
    obtain rfl := List.mem_singleton.mp hd
    have hold := h.inside c hc
    rw [he] at hold
    rw [hoff]
    exact hold

theorem Laid.dequeueChunk (h : Laid s) (chunk : VframeChunk) : Laid (s.dequeueChunk chunk) := by
  have hblock (i : Nat) : ((s.dequeueChunk chunk).blocks i).type = (s.blocks i).type ∧
      ((s.dequeueChunk chunk).blocks i).wp = (s.blocks i).wp := by
    by_cases hi : i = chunk.block
    · rw [hi, dequeueChunk_blocks_self]
      exact ⟨rfl, rfl⟩
    · rw [dequeueChunk_blocks_ne hi]
      exact ⟨rfl, rfl⟩
  refine ⟨h.direct, h.inputType, ?_, ?_, ?_, ?_, h.apart.sublist List.erase_sublist⟩
  · intro i hi
    rw [(hblock i).1]
    exact h.type i hi
  · intro i hi
    rw [(hblock i).2, (dequeueChunk_block chunk i).1]
    exact h.room i hi
  · intro i hi
    rw [(hblock i).2]
    exact h.free i hi
  · intro c hc
    rw [(hblock c.block).2]
    exact h.inside c (List.mem_of_mem_erase hc)

end Moves

/-- A block with room for `need` bytes was found, or the call fails. -/
def FoundRoom (need : Nat) : VdecInput × Except Errno Nat → Prop
  | (t, .ok b) => Laid t ∧ (t.blocks b).wp.toNat + need < (t.blocks b).size.toNat
  | (t, .error _) => Laid t

section Choose
variable {s : VdecInput} {mem : Memory}

theorem allocFreeBlock_room (h : Books s) (hl : Laid s) {size : Int32} {need : Nat}
    (hneed : size.toInt = need + 16384) (hmax : size.toInt < 2 ^ 30)
    {r : VdecInput × Except Errno Nat} (hr : s.allocFreeBlock size mem = some r) :
    FoundRoom need r := by
  unfold VdecInput.allocFreeBlock at hr
  split at hr
  · obtain rfl := Option.some.inj hr
    exact hl
  · split at hr
    · obtain rfl := Option.some.inj hr
      exact hl
    · obtain ⟨defSize, hdef, rfl⟩ := Option.map_eq_some_iff.mp hr
      have hs : Laid { s with defaultBlockSize := defSize } :=
        ⟨hl.direct, hl.inputType, hl.type, hl.room, hl.free, hl.inside, hl.apart⟩
      have hcases :=
        allocNewBlock_cases { s with defaultBlockSize := defSize } 0 0 false mem
      generalize VdecInput.allocNewBlock _ 0 0 false mem = a at hcases ⊢
      cases hcases with
      | failed errs =>
        exact ⟨hl.direct, hl.inputType, hl.type, hl.room, hl.free, hl.inside, hl.apart⟩
      | fresh block hnew =>
        obtain ⟨-, -, htype, hown⟩ := initAllocStorage_new hnew
        have hadd := hs.addBlock
          ((defaultSize_sameBooks s defSize).linked h.linked h.linked.write) htype
        refine ⟨⟨hadd.direct, hadd.inputType, hadd.type, hadd.room, hadd.free, hadd.inside,
          hadd.apart⟩, ?_⟩
        -- the new block is empty and of the default size
        have hge := le_nextDefaultSize (by omega) hmax hdef
        have hnat := toNat_toUInt32 (x := defSize) (by omega)
        have hlt : defSize.toInt < 2 ^ 31 := defSize.toInt_lt
        have ha : (4096 : UInt32).toNat = 4096 := rfl
        have hround := le_align32 defSize.toUInt32 4096 (by decide) (by omega)
        show ((VdecInput.addBlock _ block).blocks _).wp.toNat + need <
          ((VdecInput.addBlock _ block).blocks _).size.toNat
        rw [addBlock_blocks_new]
        show 0 + need < block.size.toNat
        rw [(hown rfl).2]
        show 0 + need < (align32 defSize.toUInt32 4096).toNat
        omega

theorem getFreeBlock_room (h : Books s) (hl : Laid s) {size : Int32} {need : Nat}
    (hneed : size.toInt = need + 16384) (hmax : size.toInt < 2 ^ 30)
    {r : VdecInput × Except Errno Nat} (hr : s.getFreeBlock size mem = some r) :
    FoundRoom need r := by
  unfold VdecInput.getFreeBlock at hr
  cases hfree : s.vframeBlockFreeList with
  | nil =>
    rw [hfree] at hr
    exact allocFreeBlock_room h hl hneed hmax hr
  | cons b bs =>
    have hb : b ∈ s.vframeBlockFreeList := hfree ▸ List.mem_cons_self
    rw [hfree] at hr
    dsimp only at hr
    split at hr
    · exact allocFreeBlock_room (h.delBlock (h.idle_of_free hb)) (hl.delBlock h.linked b) hneed
        hmax hr
    · rename_i hsize
      obtain rfl := Option.some.inj hr
      have hmoved := hl.moveToBusy h.linked (List.mem_append_right _ hb)
      refine ⟨⟨hmoved.direct, hmoved.inputType, hmoved.type, hmoved.room, hmoved.free,
        hmoved.inside, hmoved.apart⟩, ?_⟩
      have hge := UInt32.le_iff_toNat_le.mp (UInt32.not_lt.mp hsize)
      have hnat := toNat_toUInt32 (x := size) (by omega)
      show (s.blocks b).wp.toNat + need < (s.blocks b).size.toNat
      rw [hl.free b hb]
      show 0 + need < _
      omega

theorem recycle_laid (h : Books s) (hl : Laid s) {b : Nat} (hw : s.wrBlock = some b) :
    Laid (s.recycle b) := by
  unfold VdecInput.recycle
  split
  · rename_i hcount
    have hlink : b ∈ s.linked := List.mem_append_left _ (h.linked.write hl.direct b hw)
    have hempty := h.empty_of_count hlink hcount
    -- the write block is given up first, then the block is idle
    have hs : Laid { s with wrBlock := none } :=
      ⟨hl.direct, hl.inputType, hl.type, hl.room, hl.free, hl.inside, hl.apart⟩
    have hreset := hs.reset (b := b) ⟨hlink, hempty, fun _ hx => (nomatch hx)⟩
    have hlinked := (wrBlock_sameBooks s none).linked h.linked fun _ _ hx => (nomatch hx)
    have hset := (setBlock_sameBooks { s with wrBlock := none } b
      (f := fun block => { block with rp := 0, wp := 0 }) fun _ => ⟨rfl, rfl, rfl, rfl⟩).linked
      hlinked hlinked.write
    exact hreset.moveToFree hset hlink (by rw [setBlock_blocks_self])
  · exact hl

theorem chooseBlock_room (h : Books s) (hl : Laid s) {count padding : UInt64}
    (hc : count.toNat < 2 ^ 29) (hp : padding.toNat ≤ 4160)
    {r : VdecInput × Except Errno Nat} (hr : s.chooseBlock count padding mem = some r) :
    FoundRoom (count.toNat + padding.toNat) r := by
  have hneed := request_toInt hc hp
  have hmax : (count + padding + extraPaddingSize).toUInt32.toInt32.toInt < 2 ^ 30 := by omega
  unfold VdecInput.chooseBlock at hr
  cases hw : s.wrBlock with
  | none =>
    rw [hw] at hr
    exact getFreeBlock_room h hl hneed hmax hr
  | some b =>
    have hb : b ∈ s.linked := List.mem_append_left _ (h.linked.write hl.direct b hw)
    rw [hw] at hr
    dsimp only at hr
    split at hr
    · rename_i hspace
      obtain rfl := Option.some.inj hr
      refine ⟨hl, ?_⟩
      have hroom := hl.room b hb
      have hspace := UInt64.lt_iff_toNat_lt.mp hspace
      unfold vframeBlockSpace at hspace
      rw [if_pos (hl.type b hb), UInt32.toNat_toUInt64,
        UInt32.toNat_sub_of_le _ _ (UInt32.le_iff_toNat_le.mpr hroom), UInt64.toNat_add] at hspace
      omega
    · split at hr
      · obtain rfl := Option.some.inj hr
        exact hl
      · exact getFreeBlock_room (recycle_books h hl.direct hw) (recycle_laid h hl hw) hneed hmax hr

end Choose

section Calls
variable {s : VdecInput}

theorem addChunk_laid (h : Books s) (hl : Laid s) {f : Frame} (hf : f.count < 536870912)
    (mem : Memory) {r : VdecInput × Except Errno Unit} (hr : s.addChunk f mem = some r) :
    Laid r.1 := by
  have hcount : f.count.toNat < 2 ^ 29 := UInt64.lt_iff_toNat_lt.mp hf
  have hpad := (needPaddingSize_bounds f.count).2
  unfold VdecInput.addChunk at hr
  rw [if_neg (by rw [hl.direct]; decide), if_neg (by rw [hl.inputType]; decide)] at hr
  unfold VdecInput.addCopied at hr
  dsimp only at hr
  cases hchoose : s.chooseBlock f.count (needPaddingSize f.count) mem with
  | none =>
    rw [hchoose] at hr
    exact nomatch hr
  | some a =>
    have hfound := chooseBlock_found h hl.direct f.count (needPaddingSize f.count) hchoose
    have hroom := chooseBlock_room h hl hcount hpad hchoose
    rw [hchoose] at hr
    obtain ⟨t, e | b⟩ := a
    · obtain rfl := Option.some.inj hr
      exact hroom
    · obtain ⟨ht, hready, -⟩ := hfound
      obtain ⟨hlaid, hfit⟩ := hroom
      dsimp only at hr
      -- setting the callback moves nothing
      have hset : ∃ t', (if f.free then t.setBlock b fun block => { block with free := true }
          else t) = t' ∧ Books t' ∧ Laid t' ∧ b ∈ t'.vframeBlockList ∧
          (t'.blocks b).wp = (t.blocks b).wp ∧ (t'.blocks b).size = (t.blocks b).size := by
        split
        · refine ⟨_, rfl, ht.setBlock b fun _ => ⟨rfl, rfl, rfl, rfl⟩,
            hlaid.setBlock b fun _ => ⟨rfl, rfl, rfl⟩, hready.busy, ?_, ?_⟩
          · rw [setBlock_blocks_self]
          · rw [setBlock_blocks_self]
        · exact ⟨t, rfl, ht, hlaid, hready.busy, rfl, rfl⟩
      obtain ⟨t', he, hbooks', hlaid', hbusy', hwp', hsize'⟩ := hset
      rw [he] at hr
      split at hr
      · obtain rfl := Option.some.inj hr
        apply hlaid'.queueChunk hbooks'.linked f hbusy' rfl
        show (t'.blocks b).wp.toNat + f.count.toUInt32.toNat +
          (needPaddingSize f.count).toUInt32.toNat < (t'.blocks b).size.toNat
        rw [hwp', hsize', UInt64.toNat_toUInt32, UInt64.toNat_toUInt32,
          Nat.mod_eq_of_lt (by omega), Nat.mod_eq_of_lt (by omega)]
        omega
      · obtain rfl := Option.some.inj hr
        exact hlaid'

theorem releaseChunk_laid (h : Books s) (hl : Laid s) {t : VdecInput} {sequence : Nat}
    (hr : s.releaseChunk sequence = some t) : Laid t := by
  unfold VdecInput.releaseChunk at hr
  cases hfind : s.vframeChunkList.find? (·.sequence = sequence) with
  | none =>
    rw [hfind] at hr
    obtain rfl := Option.some.inj hr
    exact hl
  | some chunk =>
    have hc := List.mem_of_find?_eq_some hfind
    have hb := h.linked.queued_linked hc
    have hdeq : Books (s.dequeueChunk chunk) :=
      ⟨dequeueChunk_linked h.linked chunk, dequeueChunk_counted h.counted hc⟩
    have hlaid := hl.dequeueChunk chunk
    rw [hfind] at hr
    dsimp only at hr
    rw [if_pos hb] at hr
    obtain rfl := Option.some.inj hr
    have hlink : chunk.block ∈ (s.dequeueChunk chunk).linked := hb
    unfold VdecInput.settleBlock
    rw [if_neg (by rw [hdeq.linked.own hlaid.direct _ hlink]; decide)]
    split
    · rename_i hidle
      split
      · exact hlaid.delBlock hdeq.linked _
      · have hreset := hlaid.reset ⟨hlink, hdeq.empty_of_count hlink hidle.1, fun _ => hidle.2⟩
        have hset := hdeq.setBlock chunk.block (f := fun block => { block with rp := 0, wp := 0 })
          fun _ => ⟨rfl, rfl, rfl, rfl⟩
        exact hreset.moveToFree hset.linked hlink (by rw [setBlock_blocks_self])
    · exact hlaid

theorem prepareBufs_laid (h : Books s) (hl : Laid s) (support4k : Bool) (mem : Nat → Memory) :
    Laid (s.prepareBufs support4k mem) := by
  refine (prepareBufs_keeps (P := fun s => Books s ∧ Laid s) (fun s n h => ?_) (fun s errs h => ?_)
    (fun s block mem h hnew => ?_) ⟨h, hl⟩ support4k mem).2
  · exact ⟨h.1.of_same (defaultSize_sameBooks s n) rfl, h.2.direct, h.2.inputType, h.2.type, h.2.room,
      h.2.free, h.2.inside, h.2.apart⟩
  · exact ⟨h.1.of_same (errors_sameBooks s errs) rfl, h.2.direct, h.2.inputType, h.2.type, h.2.room,
      h.2.free, h.2.inside, h.2.apart⟩
  · have hadd := addBlock_books h.1 hnew fun _ => rfl
    have hlaid := (h.2.addBlock h.1.linked (initAllocStorage_new hnew).2.2.1).moveToFree hadd.linked
      (List.mem_append_left _ (addBlock_ready h.1 block).busy) (by rw [addBlock_blocks_new])
    exact ⟨prepared_books h.1 hnew, hlaid.direct, hlaid.inputType, hlaid.type, hlaid.room, hlaid.free,
      hlaid.inside, hlaid.apart⟩

theorem getFreedHandle_direct (hd : s.Direct) : s.getFreedHandle = (s, 0) := by
  have hsecure : s.secure = false := (Bool.or_eq_false_iff.mp hd).1
  unfold VdecInput.getFreedHandle
  rw [hsecure]
  rfl

end Calls

theorem step_laid {s t : VdecInput} {op : Op} (h : Books s) (hl : Laid s)
    (hop : op.Below 536870912) (hs : step s op = some t) : Laid t := by
  cases op with
  | addChunk f mem =>
    obtain ⟨r, hr, rfl⟩ := Option.map_eq_some_iff.mp hs
    exact addChunk_laid h hl hop mem hr
  | releaseChunk sequence => exact releaseChunk_laid h hl hs
  | prepareBufs support4k mem =>
    obtain rfl := Option.some.inj hs
    exact prepareBufs_laid h hl support4k mem
  | getFreedHandle =>
    obtain rfl := Option.some.inj hs
    rw [getFreedHandle_direct hl.direct]
    exact hl

theorem Op.Below.sized {op : Op} (h : op.Below 536870912) : op.Below 4294967296 := by
  cases op with
  | addChunk f mem => exact UInt64.lt_trans h (by decide)
  | _ => trivial

theorem init_laid : Laid (vdecInputInit .frameBlock false false) :=
  ⟨rfl, rfl, fun _ hb => (nomatch hb), fun _ hb => (nomatch hb), fun _ hb => (nomatch hb),
    fun _ hc => (nomatch hc), List.Pairwise.nil⟩

/-- Every queued chunk is inside its block, chunks of one block do not overlap, and the write
block is one of the block list. -/
structure ChunksPlaced (s : VdecInput) : Prop where
  inside : ∀ c ∈ s.vframeChunkList, c.block ∈ s.vframeBlockList ∧
    c.endOffset ≤ (s.blocks c.block).size.toNat
  apart : s.vframeChunkList.Pairwise fun c d => c.block = d.block →
    c.endOffset ≤ d.offset.toNat ∨ d.endOffset ≤ c.offset.toNat
  write : ∀ b, s.wrBlock = some b → b ∈ s.vframeBlockList

theorem Laid.placed {s : VdecInput} (hl : Laid s) (h : Books s) : ChunksPlaced s := by
  refine ⟨fun c hc => ⟨h.linked.queued c hc, ?_⟩, ?_, h.linked.write hl.direct⟩
  · have hwp := hl.room c.block (h.linked.queued_linked hc)
    have hin := hl.inside c hc
    omega
  · exact hl.apart.imp fun hcd he => Or.inl (hcd he)

/-- Frames below 512 MiB are placed well, whatever the order of their releases. -/
theorem chunks_stay_placed {ops : List Op} (hops : ∀ op ∈ ops, op.Below 536870912) :
    Always step ChunksPlaced (vdecInputInit .frameBlock false false) ops := by
  refine Always.imp (P := fun s => Books s ∧ Laid s) (fun s h => h.2.placed h.1)
    (always_of_domain (fun s op t h hop hs => ?_) hops
      ⟨init_books .frameBlock false false, init_laid⟩)
  exact ⟨step_books h.1 hop.sized hs, step_laid h.1 h.2 hop hs⟩

/-- A small frame that is copied. -/
def smallFrame : Frame :=
  { buf := 0, count := 1000, handle := 0, free := false, ptsValid := true, pts64 := 90 }

theorem chunks_stay_placed_pair :
    Always step ChunksPlaced (vdecInputInit .frameBlock false false)
      [.addChunk smallFrame ⟨true, true, true⟩, .addChunk smallFrame ⟨true, true, true⟩,
        .releaseChunk 1] :=
  chunks_stay_placed (by
    intro op hop
    simp only [List.mem_cons, List.not_mem_nil, or_false] at hop
    rcases hop with rfl | rfl | rfl
    · show smallFrame.count < 536870912
      decide
    · show smallFrame.count < 536870912
      decide
    · trivial)

end MediaModules.FrameInput
