import MediaModules.FrameInput.Counters
import MediaModules.FrameInput.Filling

/-!
# A frame that cannot be read

`vdec_input_add_chunk` with the memory it writes and the time stamp flag of its `vdec`. It looks at
the result of `vframe_chunk_fill`, which does not look at those of its copies.
-/
namespace MediaModules.FrameInput

/-- The frame input with the memory of its blocks and `pts_valid` of its `vdec`. -/
structure FilledInput where
  input : VdecInput
  memory : Nat → BlockMemory
  ptsValid : Bool

/-- The negative results of `vdec_input_add_chunk`. -/
inductive AddError
  | refused (e : Errno)
  | efault
  deriving DecidableEq, Repr

namespace FilledInput
variable (env : Nat → Surroundings)

/-- The frame with the flag that the `vdec` has for it. -/
def stamped (s : FilledInput) (f : Frame) : Frame := { f with ptsValid := s.ptsValid }

/-- The block of the next frame, with its callback. -/
def takeBlock (s : FilledInput) (f : Frame) (mem : Memory) :
    Option (VdecInput × Except Errno Nat) :=
  (s.input.chooseBlock f.count (needPaddingSize f.count) mem).map fun
    | (t, .ok b) =>
      (if f.free then t.setBlock b fun block => { block with free := true } else t, .ok b)
    | r => r

/-- The chunk of a frame that is copied to block `b`. -/
def copiedChunk (t : VdecInput) (f : Frame) (b : Nat) : VframeChunk :=
  t.newChunk f b (t.blocks b).wp (needPaddingSize f.count).toUInt32

/-- `vdec_input_add_chunk` of data that is copied, with the copies. -/
def addCopied (s : FilledInput) (f : Frame) (buf : UserBuffer) (mem : Memory) :
    Option (FilledInput × Except AddError UInt64) :=
  match s.takeBlock f mem with
  | none => none
  | some (t, .error e) => some ({ s with input := t }, .error (.refused e))
  | some (t, .ok b) =>
    if mem.chunk then
      let f := s.stamped f
      let chunk := copiedChunk t f b
      ((env b).vframeChunkFill (s.memory b) chunk buf f.count (t.blocks b)).map fun (m, e) =>
        let memory := fun i => if i = b then m else s.memory i
        if e ≠ 0 then
          ({ input := { t with lastDuration := t.nextDuration f }, memory := memory,
             ptsValid := false }, .error .efault)
        else
          ({ input := t.queueChunk f chunk, memory := memory, ptsValid := false }, .ok f.count)
    else
      some ({ s with input := t }, .error (.refused .enomem))

/-- `vdec_input_add_chunk`. The flag stays when no chunk was allocated. -/
def addChunk (s : FilledInput) (f : Frame) (buf : UserBuffer) (mem : Memory) :
    Option (FilledInput × Except AddError UInt64) :=
  if s.input.secure || s.input.dmabuf then
    match s.input.addOutBuf (s.stamped f) mem with
    | (t, .ok ()) => some ({ s with input := t, ptsValid := false }, .ok f.count)
    | (t, .error e) => some ({ s with input := t }, .error (.refused e))
  else if s.input.type = .single ∨ s.input.type = .streamParser then
    some (s, .error (.refused .einval))
  else
    s.addCopied env f buf mem

/-- The call gets to the copies, and one of them cannot read all of its bytes. -/
def CopyFails (s : FilledInput) (f : Frame) (buf : UserBuffer) (mem : Memory) : Prop :=
  s.input.Direct ∧ s.input.type ≠ .single ∧ s.input.type ≠ .streamParser ∧ mem.chunk = true ∧
    ∃ t b m codes, s.takeBlock f mem = some (t, .ok b) ∧
      (env b).fillCopies (s.memory b) (copiedChunk t (s.stamped f) b) buf f.count (t.blocks b) =
        some (m, codes) ∧ efault ∈ codes

/-- The call fails, and what it did is undone. -/
structure Undone (s t : FilledInput) (result : Except AddError UInt64) : Prop where
  failed : ∃ e, result = .error e
  chunks : t.input.vframeChunkList = s.input.vframeChunkList
  wp : ∀ b, (t.input.blocks b).wp = (s.input.blocks b).wp
  haveFrameNum : t.input.haveFrameNum = s.input.haveFrameNum
  dataSize : t.input.dataSize = s.input.dataSize
  totalWrCount : t.input.totalWrCount = s.input.totalWrCount
  sequence : t.input.sequence = s.input.sequence
  lastInNoptsCnt : t.input.lastInNoptsCnt = s.input.lastInNoptsCnt
  ptsValid : t.ptsValid = s.ptsValid

end FilledInput

/-- The result of `vframe_chunk_fill` is zero, whatever its copies return. -/
theorem vframeChunkFill_zero {env : Surroundings} {mem : BlockMemory} {chunk : VframeChunk}
    {buf : UserBuffer} {count : UInt64} {block : VframeBlock} {r : BlockMemory × Int}
    (h : env.vframeChunkFill mem chunk buf count block = some r) : r.2 = 0 := by
  unfold Surroundings.vframeChunkFill at h
  obtain ⟨⟨m, codes⟩, -, h⟩ := Option.bind_eq_some_iff.mp h
  dsimp only at h
  split at h
  · obtain ⟨m', -, rfl⟩ := Option.map_eq_some_iff.mp h
    rfl
  · obtain rfl := Option.some.inj h
    rfl

section Results
variable {env : Nat → Surroundings} {s : FilledInput} {f : Frame} {buf : UserBuffer} {mem : Memory}
  {r : FilledInput × Except AddError UInt64}

theorem addCopied_queues {t : VdecInput} {b : Nat} (htake : s.takeBlock f mem = some (t, .ok b))
    (halloc : mem.chunk = true) (hr : s.addCopied env f buf mem = some r) :
    r.2 = .ok f.count ∧ r.1.ptsValid = false ∧
      r.1.input = t.queueChunk (s.stamped f) (FilledInput.copiedChunk t (s.stamped f) b) := by
  unfold FilledInput.addCopied at hr
  rw [htake] at hr
  dsimp only at hr
  rw [if_pos halloc] at hr
  obtain ⟨⟨m, e⟩, hfill, rfl⟩ := Option.map_eq_some_iff.mp hr
  have hzero : e = 0 := vframeChunkFill_zero hfill
  rw [hzero]
  exact ⟨rfl, rfl, rfl⟩

end Results

/-- A frame that cannot be read is queued like any other: nothing is undone. -/
theorem failed_copy_queued (env : Nat → Surroundings) (s : FilledInput) (f : Frame)
    (buf : UserBuffer) (mem : Memory) {r : FilledInput × Except AddError UInt64}
    (hr : s.addChunk env f buf mem = some r) (hfails : s.CopyFails env f buf mem) :
    ¬ s.Undone r.1 r.2 := by
  obtain ⟨hdirect, hsingle, hstream, halloc, t, b, m, codes, htake, -, -⟩ := hfails
  unfold FilledInput.addChunk at hr
  rw [if_neg (by rw [hdirect]; decide), if_neg (not_or.mpr ⟨hsingle, hstream⟩)] at hr
  obtain ⟨hok, -, -⟩ := addCopied_queues htake halloc hr
  rintro ⟨⟨e, herror⟩, -⟩
  exact nomatch hok.symm.trans herror

/-- A fresh input whose blocks are mapped, before a frame with a time stamp. -/
def freshFill : FilledInput :=
  { input := vdecInputInit .frameBlock false false, memory := fun _ _ => 7, ptsValid := true }

def mappedBlocks : Nat → Surroundings := fun _ => { mappable with isMapped := true }

def stampedFrame : Frame :=
  { buf := 0, count := 8, handle := 0, free := false, ptsValid := true, pts64 := 40000 }

/-- Five bytes of the frame can be read. -/
def shortBuffer : UserBuffer := fun k => if k < 5 then some 1 else none

def shortFill : FilledInput × Except AddError UInt64 :=
  (freshFill.addChunk mappedBlocks stampedFrame shortBuffer ⟨true, true, true⟩).get
    (by decide +kernel)

theorem failed_copy_queued_short : ¬ freshFill.Undone shortFill.1 shortFill.2 := by
  refine failed_copy_queued mappedBlocks freshFill stampedFrame shortBuffer ⟨true, true, true⟩
    (Option.some_get _).symm ?_
  exact ⟨rfl, by decide, by decide, rfl, _, 0, _, [efault], rfl, rfl, List.mem_singleton_self _⟩

/-- The frame that could not be read whole is in the queue, and its time stamp is used up. -/
theorem short_frame_queued :
    ¬ ∀ (env : Nat → Surroundings) (s : FilledInput) (f : Frame) (buf : UserBuffer) (mem : Memory)
      (r : FilledInput × Except AddError UInt64), s.addChunk env f buf mem = some r →
        s.CopyFails env f buf mem → s.Undone r.1 r.2 := by
  intro hall
  have hundone := hall mappedBlocks freshFill stampedFrame shortBuffer ⟨true, true, true⟩ shortFill
    (Option.some_get _).symm
    ⟨rfl, by decide, by decide, rfl, _, 0, _, [efault], rfl, rfl, List.mem_singleton_self _⟩
  have hstamp : shortFill.1.ptsValid = false := by decide +kernel
  exact absurd (hstamp.symm.trans hundone.ptsValid) (by decide)

end MediaModules.FrameInput
