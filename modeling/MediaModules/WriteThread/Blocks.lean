import Mathlib.Data.List.Nodup
import MediaModules.Lib.Run
import MediaModules.WriteThread.Task

/-!
# The blocks between the two FIFOs

Every block of the task is in one of the FIFOs and has memory of its own, and what was accepted from
user space is what the low-level write took, followed by the contents of the queue. A write keeps
this when its copies succeed; the work of the thread keeps it whatever the low-level write returns.
-/
namespace MediaModules.WriteThread

open Lib Lib.Words

/-- A task, the bytes accepted from user space and the bytes the low-level write took. -/
structure Session where
  task : WriteTask
  accepted : List UInt8
  passed : List UInt8

inductive TaskOp
  | write (buf : Nat) (data : UserData) (uncopied : Nat → Nat)
  | work (ret : Int)
  | more (size : Int32) (env : MmEnv)

def taskStep (s : Session) : TaskOp → Option Session
  | .write buf data uncopied =>
    (threadrwWriteIn s.task buf data uncopied).map fun r =>
      { s with task := r.2.2, accepted := s.accepted ++ data.bytes.take r.1 }
  | .work ret =>
    (doWriteWorkIn s.task ret).map fun r => { s with task := r.2.2, passed := s.passed ++ r.2.1 }
  | .more size env => some { s with task := (threadrwAllocMoreBufferSize s.task size env).2 }

/-- The contents of the queued blocks, in the order of the queue. -/
def pendingBytes (t : WriteTask) : List Address → Option (List UInt8)
  | [] => some []
  | .user _ :: _ => none
  | .block i :: rest =>
    (t.contents (t.buf i)).bind fun bytes => (pendingBytes t rest).map fun more => bytes ++ more

/-- The books of a task: the FIFOs hold the blocks, each of them once, the blocks have memory of
their own, and the bytes are all there. -/
structure TaskOk (s : Session) : Prop where
  fifos : (s.task.freefifo ++ s.task.datafifo).Perm
    ((List.range s.task.bufsNum).map Address.block)
  memory : ∀ i < s.task.bufsNum, (s.task.buf i).vbuffer = some (s.task.buf i).dmaHandle ∧
    0 < (s.task.buf i).bufferSize ∧
    s.task.memory.Owned (s.task.buf i).dmaHandle (s.task.buf i).bufferSize.toNat
  apart : ∀ i < s.task.bufsNum, ∀ j < s.task.bufsNum, i ≠ j →
    (s.task.buf i).dmaHandle.Apart (s.task.buf i).bufferSize.toNat
      (s.task.buf j).dmaHandle (s.task.buf j).bufferSize.toNat
  bytes : ∃ rest, pendingBytes s.task s.task.datafifo = some rest ∧ s.accepted = s.passed ++ rest

/-- The bytes a queued block still holds lie in it. -/
def Queued (b : ThreadrwBuf) : Prop :=
  0 < b.dataSize ∧ 0 ≤ b.writeOff ∧ b.writeOff + b.dataSize ≤ b.bufferSize

/-- What the operations keep along with the books. -/
structure Kept (s : Session) : Prop extends TaskOk s where
  sizes : ∀ i, 0 ≤ (s.task.buf i).bufferSize ∧ (s.task.buf i).bufferSize < 2147483648
  queued : ∀ i, .block i ∈ s.task.datafifo → Queued (s.task.buf i)
  errors : s.task.errors ≤ 0
  defSize : 0 ≤ s.task.defBlockSize ∧ s.task.defBlockSize < 2147483648
  room : s.task.bufsNum ≤ s.task.maxBufs

variable {s : Session} {t t' : WriteTask} {accepted passed : List UInt8} {i : Nat}

theorem mem_fifos (h : TaskOk s) {a : Address} :
    a ∈ s.task.freefifo ++ s.task.datafifo ↔ ∃ i < s.task.bufsNum, a = .block i := by
  rw [h.fifos.mem_iff]
  simp only [List.mem_map, List.mem_range, eq_comm]

theorem free_lt (h : TaskOk s) (hi : .block i ∈ s.task.freefifo) : i < s.task.bufsNum := by
  obtain ⟨j, hj, he⟩ := (mem_fifos h).mp (List.mem_append_left _ hi)
  rwa [Address.block.inj he]

theorem data_lt (h : TaskOk s) (hi : .block i ∈ s.task.datafifo) : i < s.task.bufsNum := by
  obtain ⟨j, hj, he⟩ := (mem_fifos h).mp (List.mem_append_right _ hi)
  rwa [Address.block.inj he]

theorem fifos_nodup (h : TaskOk s) : (s.task.freefifo ++ s.task.datafifo).Nodup :=
  h.fifos.nodup_iff.mpr (List.Nodup.map (fun _ _ he => Address.block.inj he) List.nodup_range)

theorem no_user (h : TaskOk s) {a : Nat} : .user a ∉ s.task.freefifo ++ s.task.datafifo := by
  intro ha
  obtain ⟨j, -, he⟩ := (mem_fifos h).mp ha
  cases he

/-- The queue reads the same when each of its blocks does. -/
theorem pendingBytes_congr {data : List Address}
    (hsame : ∀ i, .block i ∈ data → t'.contents (t'.buf i) = t.contents (t.buf i)) :
    pendingBytes t' data = pendingBytes t data := by
  induction data with
  | nil => rfl
  | cons a data ih =>
    cases a with
    | user a => rfl
    | block i =>
      simp only [pendingBytes]
      rw [hsame i List.mem_cons_self, ih fun j hj => hsame j (List.mem_cons_of_mem _ hj)]

theorem pendingBytes_append (data data' : List Address) :
    pendingBytes t (data ++ data') = (pendingBytes t data).bind fun bytes =>
      (pendingBytes t data').map fun more => bytes ++ more := by
  induction data with
  | nil => simp [pendingBytes]
  | cons a data ih =>
    cases a with
    | user a => rfl
    | block i =>
      simp only [List.cons_append, pendingBytes, ih]
      cases t.contents (t.buf i) <;> cases pendingBytes t data <;>
        cases pendingBytes t data' <;> simp

/-- A block that has memory is read there, in either mode. -/
theorem contents_eq {b : ThreadrwBuf} (hv : b.vbuffer = some b.dmaHandle) :
    t.contents b = t.memory.load b.dmaHandle b.writeOff b.dataSize.toNat := by
  simp only [WriteTask.contents, WriteTask.source, hv, ite_self, Option.bind_some]

/-- A queued block can be read. -/
theorem contents_some (h : Kept s) (hi : .block i ∈ s.task.datafifo) :
    ∃ bytes, s.task.contents (s.task.buf i) = some bytes ∧
      bytes.length = (s.task.buf i).dataSize.toNat := by
  obtain ⟨hv, hpos, hown⟩ := h.memory i (data_lt h.toTaskOk hi)
  obtain ⟨hdata, hoff, hend⟩ := h.queued i hi
  rw [contents_eq hv]
  exact Heap.load_some hown hoff (by omega)

/-- The counts do not matter to the books. -/
theorem Kept.congr (h : Kept ⟨t, accepted, passed⟩) (hdata : t'.datafifo = t.datafifo)
    (hfree : t'.freefifo = t.freefifo) (hnum : t'.bufsNum = t.bufsNum) (hbuf : t'.buf = t.buf)
    (hmem : t'.memory = t.memory) (hmode : t'.manualWrite = t.manualWrite)
    (hmax : t'.maxBufs = t.maxBufs) (herr : t'.errors ≤ 0)
    (hdef : 0 ≤ t'.defBlockSize ∧ t'.defBlockSize < 2147483648) :
    Kept ⟨t', accepted, passed⟩ := by
  have hcontents : ∀ b, t'.contents b = t.contents b := fun b => by
    simp only [WriteTask.contents, WriteTask.source, hmem, hmode]
  have hpending : pendingBytes t' t'.datafifo = pendingBytes t t.datafifo := by
    rw [hdata]
    exact pendingBytes_congr fun i _ => by rw [hbuf, hcontents]
  obtain ⟨⟨hfifos, hmemory, hapart, hbytes⟩, hsizes, hqueued, -, -, hroom⟩ := h
  dsimp only at hfifos hmemory hapart hbytes hsizes hqueued hroom
  refine ⟨⟨?_, ?_, ?_, ?_⟩, ?_, ?_, herr, hdef, ?_⟩
  · rw [hfree, hdata, hnum]
    exact hfifos
  · rw [hnum, hbuf, hmem]
    exact hmemory
  · rw [hnum, hbuf]
    exact hapart
  · rw [hpending]
    exact hbytes
  · rw [hbuf]
    exact hsizes
  · rw [hdata, hbuf]
    exact hqueued
  · rw [hnum, hmax]
    exact hroom

section write

/-- The copies of a write, into the free blocks from the first on, succeed. -/
def CopiesSucceed (size : Nat → Nat) (uncopied : Nat → Nat) : List Address → Nat → Nat → Prop
  | .block i :: free, off, left =>
    left = 0 ∨ uncopied off = 0 ∧
      CopiesSucceed size uncopied free (off + min (size i) left) (left - min (size i) left)
  | _, _, _ => True

instance CopiesSucceed.decidable (size uncopied : Nat → Nat) :
    (free : List Address) → (off left : Nat) → Decidable (CopiesSucceed size uncopied free off left)
  | [], _, _ => .isTrue trivial
  | .user _ :: _, _, _ => .isTrue trivial
  | .block i :: free, off, left =>
    have := CopiesSucceed.decidable size uncopied free (off + min (size i) left)
      (left - min (size i) left)
    inferInstanceAs (Decidable (_ ∨ _ ∧ _))

/-- The size of each block. -/
def WriteTask.sizeOf (t : WriteTask) (i : Nat) : Nat := (t.buf i).bufferSize.toNat

/-- The free block the copy goes to, filled and queued. -/
def WriteTask.filled (t : WriteTask) (i : Nat) (free : List Address) (n : Nat) (memory : Heap) :
    WriteTask :=
  { t with
    freefifo := free
    datafifo := t.datafifo ++ [.block i]
    buf := Function.update t.buf i { t.buf i with dataSize := n, writeOff := 0 }
    memory := memory }

variable {free : List Address} {left : List UInt8} {n : Nat} {memory : Heap}

/-- One copy: it goes to the first free block, and either the block is queued or the address of the
user data takes its place. -/
theorem once_eq (buf uncopied : Nat) (h : Kept ⟨t, accepted, passed⟩) (hfree : t.freefifo = .block i :: free)
    (hleft : left.length ≤ 2147479552) :
    ∃ memory, t.memory.store (t.buf i).dmaHandle
        (left.take (min (t.sizeOf i) left.length - uncopied)) = some memory ∧
      threadrwWriteOnece t buf left uncopied =
        if uncopied = 0 ∨ left = [] then
          some (((min (t.sizeOf i) left.length : Nat) : Int),
            t.filled i free (min (t.sizeOf i) left.length) memory)
        else some (-EFAULT, { t with freefifo := free ++ [.user buf], memory := memory }) := by
  have hi : i < t.bufsNum := free_lt h.toTaskOk (show .block i ∈ t.freefifo by
    rw [hfree]; exact List.mem_cons_self)
  obtain ⟨hv, hpos, hown⟩ := h.memory i hi
  obtain ⟨-, hsize⟩ := h.sizes i
  dsimp only at hv hpos hown hsize
  have hw : min (u32 (t.buf i).bufferSize) (u32 left.length) =
      (min (t.sizeOf i) left.length : Nat) := by
    rw [u32_of_range (by omega) (by omega), u32_of_range (by omega) (by omega),
      WriteTask.sizeOf]
    omega
  have hcopied : (left.take (min (t.sizeOf i) left.length - uncopied)).length =
      min (t.sizeOf i) left.length - uncopied := by
    rw [List.length_take]
    omega
  have hroom : (left.take (min (t.sizeOf i) left.length - uncopied)).length ≤
      (t.buf i).bufferSize.toNat := by
    rw [hcopied, WriteTask.sizeOf]
    omega
  obtain ⟨memory, hstore⟩ := Heap.store_some hown hroom
  refine ⟨memory, hstore, ?_⟩
  have hlenpos : left = [] ↔ left.length = 0 := List.length_eq_zero_iff.symm
  have hsizepos : 0 < t.sizeOf i := by rw [WriteTask.sizeOf]; omega
  simp only [threadrwWriteOnece, hfree, hv, Option.bind_some, hw, Int.toNat_natCast, hstore,
    Option.map_some, hcopied, hlenpos]
  by_cases hok : uncopied = 0 ∨ left.length = 0
  · rw [if_pos hok, if_neg (by omega)]
    simp only [WriteTask.filled, hv]
  · rw [if_neg hok, if_pos (by omega)]

/-- Only the data size and the offset of the block change. -/
theorem buf_filled (t : WriteTask) (i : Nat) (free : List Address) (n : Nat) (memory : Heap)
    (j : Nat) :
    ((t.filled i free n memory).buf j).dmaHandle = (t.buf j).dmaHandle ∧
      ((t.filled i free n memory).buf j).vbuffer = (t.buf j).vbuffer ∧
      ((t.filled i free n memory).buf j).bufferSize = (t.buf j).bufferSize := by
  by_cases hj : j = i
  · rw [WriteTask.filled, hj]
    simp only [Function.update_self, and_self]
  · rw [WriteTask.filled]
    simp only [Function.update_of_ne hj, and_self]

/-- The bytes of the block are behind those that were queued. -/
theorem pendingBytes_filled (h : Kept ⟨t, accepted, passed⟩) (hi : i < t.bufsNum)
    (hnot : .block i ∉ t.datafifo) (hn : n = (left.take n).length) (hbound : n ≤ t.sizeOf i)
    (hstore : t.memory.store (t.buf i).dmaHandle (left.take n) = some memory) {rest : List UInt8}
    (hrest : pendingBytes t t.datafifo = some rest) :
    pendingBytes (t.filled i free n memory) (t.datafifo ++ [.block i]) =
      some (rest ++ left.take n) := by
  obtain ⟨hv, -, -⟩ := h.memory i hi
  have hother : ∀ j, .block j ∈ t.datafifo → (t.filled i free n memory).buf j = t.buf j := by
    intro j hj
    have hji : j ≠ i := fun he => hnot (he ▸ hj)
    exact Function.update_of_ne hji _ _
  have hown : (t.filled i free n memory).buf i =
      { t.buf i with dataSize := n, writeOff := 0 } := Function.update_self _ _ _
  have hsame : pendingBytes (t.filled i free n memory) t.datafifo = some rest := by
    rw [← hrest]
    apply pendingBytes_congr
    intro j hj
    obtain ⟨hv', -, -⟩ := h.memory j (data_lt h.toTaskOk hj)
    obtain ⟨hdata, hoff, hend⟩ := h.queued j hj
    dsimp only at hv' hdata hoff hend
    rw [hother j hj, contents_eq hv', contents_eq hv']
    refine Heap.load_store_apart hstore
      (h.apart i hi j (data_lt h.toTaskOk hj) fun he => hnot (he ▸ hj)) ?_ hoff ?_
    · rw [← hn]
      exact hbound
    · dsimp only
      omega
  have hnew : (t.filled i free n memory).contents ((t.filled i free n memory).buf i) =
      some (left.take n) := by
    have hload := Heap.load_store hstore
    rw [← hn] at hload
    rw [hown]
    exact (contents_eq (t := t.filled i free n memory)
      (b := { t.buf i with dataSize := n, writeOff := 0 }) hv).trans hload
  rw [pendingBytes_append, hsame]
  simp only [pendingBytes, hnew, Option.bind_some, Option.map_some, List.append_nil]

/-- A block that is filled and queued keeps the books, with the copied bytes accepted. -/
theorem kept_filled (h : Kept ⟨t, accepted, passed⟩) (hfree : t.freefifo = .block i :: free)
    (hleft : left ≠ []) (hn : n = min (t.sizeOf i) left.length)
    (hstore : t.memory.store (t.buf i).dmaHandle (left.take n) = some memory) :
    Kept ⟨t.filled i free n memory, accepted ++ left.take n, passed⟩ := by
  have hmem : .block i ∈ t.freefifo := by rw [hfree]; exact List.mem_cons_self
  have hi : i < t.bufsNum := free_lt h.toTaskOk hmem
  obtain ⟨hv, hpos, -⟩ := h.memory i hi
  dsimp only at hv hpos
  have hlenpos : 0 < left.length := List.length_pos_iff.mpr hleft
  have hsizepos : 0 < t.sizeOf i := by rw [WriteTask.sizeOf]; omega
  have hbound : n ≤ t.sizeOf i := by omega
  have hlen : (left.take n).length = n := by rw [List.length_take]; omega
  have hnodup : (t.freefifo ++ t.datafifo).Nodup := fifos_nodup h.toTaskOk
  have hnot : .block i ∉ t.datafifo := by
    rw [hfree, List.cons_append, List.nodup_cons] at hnodup
    exact fun hd => hnodup.1 (List.mem_append_right _ hd)
  refine ⟨⟨?_, ?_, ?_, ?_⟩, ?_, ?_, h.errors, h.defSize, h.room⟩
  · have hperm := h.fifos
    dsimp only at hperm
    rw [hfree] at hperm
    refine List.Perm.trans ?_ hperm
    show (free ++ (t.datafifo ++ [Address.block i])).Perm (Address.block i :: (free ++ t.datafifo))
    rw [← List.append_assoc]
    exact List.perm_append_singleton _ _
  · intro j hj
    obtain ⟨hv', hpos', hown'⟩ := h.memory j hj
    obtain ⟨h1, h2, h3⟩ := buf_filled t i free n memory j
    show ((t.filled i free n memory).buf j).vbuffer = _ ∧ 0 < _ ∧ memory.Owned _ _
    rw [h1, h2, h3]
    exact ⟨hv', hpos', hown'.store hstore⟩
  · intro j hj k hk hne
    obtain ⟨h1, -, h3⟩ := buf_filled t i free n memory j
    obtain ⟨h1', -, h3'⟩ := buf_filled t i free n memory k
    show Place.Apart ((t.filled i free n memory).buf j).dmaHandle _ _ _
    rw [h1, h3, h1', h3']
    exact h.apart j hj k hk hne
  · obtain ⟨rest, hrest, hacc⟩ := h.bytes
    dsimp only at hrest hacc
    exact ⟨rest ++ left.take n, pendingBytes_filled h hi hnot hlen.symm hbound hstore hrest,
      by rw [hacc, List.append_assoc]⟩
  · intro j
    rw [(buf_filled t i free n memory j).2.2]
    exact h.sizes j
  · intro j hj
    rcases List.mem_append.mp (show Address.block j ∈ t.datafifo ++ [.block i] from hj) with
      hold | hnew
    · have hji : j ≠ i := fun he => hnot (he ▸ hold)
      have hother : (t.filled i free n memory).buf j = t.buf j := Function.update_of_ne hji _ _
      show Queued ((t.filled i free n memory).buf j)
      rw [hother]
      exact h.queued j hold
    · obtain rfl := Address.block.inj (List.mem_singleton.mp hnew)
      have hown : (t.filled j free n memory).buf j =
          { t.buf j with dataSize := n, writeOff := 0 } := Function.update_self _ _ _
      show Queued ((t.filled j free n memory).buf j)
      rw [hown]
      refine ⟨?_, le_rfl, ?_⟩
      · show 0 < (n : Int)
        omega
      · show (0 : Int) + n ≤ (t.buf j).bufferSize
        rw [WriteTask.sizeOf] at hbound
        omega

theorem sizeOf_filled (j : Nat) : (t.filled i free n memory).sizeOf j = t.sizeOf j := by
  rw [WriteTask.sizeOf, WriteTask.sizeOf, (buf_filled t i free n memory j).2.2]

/-- The loop keeps the books when its copies succeed. The induction is on the turns; what one copy
takes off the user data is what the next starts behind. -/
theorem kept_writeLoop {uncopied : Nat → Nat} (buf turns : Nat) {off : Nat}
    (h : Kept ⟨t, accepted, passed⟩) (hturns : t.freefifo.length < turns)
    (hleft : left.length ≤ 2147479552)
    (hcopies : CopiesSucceed t.sizeOf uncopied t.freefifo off left.length) :
    ∃ off' ret t', writeLoop buf uncopied turns t off left = some (off', ret, t') ∧ off ≤ off' ∧
      Kept ⟨t', accepted ++ left.take (off' - off), passed⟩ := by
  induction turns generalizing t accepted off left with
  | zero => omega
  | succ turns ih =>
    rw [writeLoop]
    by_cases hnil : left = []
    · rw [if_pos hnil]
      refine ⟨off, 0, t, rfl, le_rfl, ?_⟩
      rw [Nat.sub_self, List.take_zero, List.append_nil]
      exact h
    · rw [if_neg hnil]
      cases hfree : t.freefifo with
      | nil =>
        have hneg : (if t.errors ≠ 0 then t.errors else -EAGAIN) < 0 := by
          have herr := h.errors
          dsimp only at herr
          split
          · omega
          · decide
        refine ⟨off, if t.errors ≠ 0 then t.errors else -EAGAIN, t, ?_, le_rfl, ?_⟩
        · simp only [threadrwWriteOnece, hfree, Option.bind_some, if_pos hneg]
        · rw [Nat.sub_self, List.take_zero, List.append_nil]
          exact h
      | cons a free =>
        cases a with
        | user a =>
          exact absurd (List.mem_append_left _ (by rw [hfree]; exact List.mem_cons_self))
            (no_user h.toTaskOk (a := a))
        | block i =>
          rw [hfree, CopiesSucceed] at hcopies
          have hlenpos : 0 < left.length := List.length_pos_iff.mpr hnil
          obtain ⟨hcopy, hrest⟩ := hcopies.resolve_left (by omega)
          obtain ⟨memory, hstore, honce⟩ := once_eq (buf + off) (uncopied off) h hfree hleft
          rw [if_pos (Or.inl hcopy)] at honce
          rw [hcopy, Nat.sub_zero] at hstore
          set n := min (t.sizeOf i) left.length with hn
          have hkept := kept_filled h hfree hnil hn hstore
          have hnext : CopiesSucceed (t.filled i free n memory).sizeOf uncopied free (off + n)
              (left.drop n).length := by
            have hsizes : (t.filled i free n memory).sizeOf = t.sizeOf := funext sizeOf_filled
            rw [hsizes, List.length_drop]
            exact hrest
          rw [hfree, List.length_cons] at hturns
          obtain ⟨off', ret, t', hloop, hle, hfinal⟩ := ih hkept (Nat.lt_of_succ_lt_succ hturns)
            (by rw [List.length_drop]; omega) hnext
          refine ⟨off', ret, t', ?_, by omega, ?_⟩
          · rw [honce, Option.bind_some, if_neg (by omega)]
            exact hloop
          · have htake : left.take (off' - off) =
                left.take n ++ (left.drop n).take (off' - (off + n)) := by
              rw [← List.take_add]
              congr 1
              omega
            rw [htake, ← List.append_assoc]
            exact hfinal

/-- A copy that fails leaves the address of the user data among the free blocks. -/
theorem writeLoop_user {uncopied : Nat → Nat} (buf turns : Nat) {off off' : Nat} {ret : Int}
    (h : Kept ⟨t, accepted, passed⟩) (hturns : t.freefifo.length < turns)
    (hleft : left.length ≤ 2147479552)
    (hcopies : ¬ CopiesSucceed t.sizeOf uncopied t.freefifo off left.length)
    (hloop : writeLoop buf uncopied turns t off left = some (off', ret, t')) :
    ∃ a, .user a ∈ t'.freefifo := by
  induction turns generalizing t accepted off left with
  | zero => omega
  | succ turns ih =>
    cases hfree : t.freefifo with
    | nil =>
      rw [hfree] at hcopies
      exact absurd trivial hcopies
    | cons a free =>
      cases a with
      | user a =>
        rw [hfree] at hcopies
        exact absurd trivial hcopies
      | block i =>
        rw [hfree, CopiesSucceed, not_or, not_and] at hcopies
        obtain ⟨hzero, hrest⟩ := hcopies
        have hnil : left ≠ [] := fun he => hzero (by rw [he]; rfl)
        obtain ⟨memory, hstore, honce⟩ := once_eq (buf + off) (uncopied off) h hfree hleft
        rw [writeLoop, if_neg hnil, honce] at hloop
        by_cases hcopy : uncopied off = 0
        · rw [if_pos (Or.inl hcopy), Option.bind_some, if_neg (by omega)] at hloop
          rw [hcopy, Nat.sub_zero] at hstore
          set n := min (t.sizeOf i) left.length with hn
          have hnext : ¬ CopiesSucceed (t.filled i free n memory).sizeOf uncopied free (off + n)
              (left.drop n).length := by
            have hsizes : (t.filled i free n memory).sizeOf = t.sizeOf := funext sizeOf_filled
            rw [hsizes, List.length_drop]
            exact hrest hcopy
          rw [hfree, List.length_cons] at hturns
          exact ih (kept_filled h hfree hnil hn hstore) (Nat.lt_of_succ_lt_succ hturns)
            (by rw [List.length_drop]; omega) hnext hloop
        · have hneither : ¬ (uncopied off = 0 ∨ left = []) := by
            rintro (hc | hl)
            · exact hcopy hc
            · exact hnil hl
          rw [if_neg hneither, Option.bind_some, if_pos (show -EFAULT < 0 by decide)] at hloop
          obtain ⟨-, -, rfl⟩ := Prod.mk.inj (Option.some.inj hloop) |>.imp id Prod.mk.inj
          exact ⟨buf + off, List.mem_append_right _ List.mem_cons_self⟩

theorem kept_counted (h : Kept ⟨t, accepted, passed⟩) (off : Nat) :
    Kept ⟨t.counted off, accepted, passed⟩ := by
  rw [WriteTask.counted]
  split
  · exact h.congr rfl rfl rfl rfl rfl rfl rfl h.errors h.defSize
  · exact h

end write

section work

variable {data : List Address} {bytes : List UInt8} {b : ThreadrwBuf}

/-- A change of one block that leaves its place and its size keeps every block's memory. -/
theorem place_update (hplace : b.dmaHandle = (t.buf i).dmaHandle ∧
    b.vbuffer = (t.buf i).vbuffer ∧ b.bufferSize = (t.buf i).bufferSize) (j : Nat) :
    (Function.update t.buf i b j).dmaHandle = (t.buf j).dmaHandle ∧
      (Function.update t.buf i b j).vbuffer = (t.buf j).vbuffer ∧
      (Function.update t.buf i b j).bufferSize = (t.buf j).bufferSize := by
  by_cases hj : j = i
  · rw [hj, Function.update_self]
    exact hplace
  · rw [Function.update_of_ne hj]
    exact ⟨rfl, rfl, rfl⟩

theorem head_once (h : TaskOk s) (hdata : s.task.datafifo = .block i :: data) :
    .block i ∉ data := by
  have hnodup := fifos_nodup h
  rw [hdata, List.nodup_append] at hnodup
  exact (List.nodup_cons.mp hnodup.2.1).1

/-- What is left of the queue reads as before when only its head changes. -/
theorem pendingBytes_rest (h : Kept ⟨t, accepted, passed⟩) (hdata : t.datafifo = .block i :: data)
    (hbuf : t'.buf = Function.update t.buf i b) (hmem : t'.memory = t.memory)
    (hmode : t'.manualWrite = t.manualWrite) : pendingBytes t' data = pendingBytes t data := by
  apply pendingBytes_congr
  intro j hj
  have hji : j ≠ i := fun he => head_once h.toTaskOk hdata (he ▸ hj)
  rw [hbuf, Function.update_of_ne hji]
  simp only [WriteTask.contents, WriteTask.source, hmem, hmode]

/-- The books of the queue's head: its bytes come first. -/
theorem bytes_head (h : Kept ⟨t, accepted, passed⟩) (hdata : t.datafifo = .block i :: data)
    (hbytes : t.contents (t.buf i) = some bytes) :
    ∃ rest, pendingBytes t data = some rest ∧ accepted = passed ++ (bytes ++ rest) := by
  obtain ⟨all, hall, hacc⟩ := h.bytes
  dsimp only at hall hacc
  rw [hdata, pendingBytes, hbytes, Option.bind_some, Option.map_eq_some_iff] at hall
  obtain ⟨rest, hrest, rfl⟩ := hall
  exact ⟨rest, hrest, hacc⟩

/-- The low-level write took all of the block. -/
theorem kept_taken (h : Kept ⟨t, accepted, passed⟩) (hdata : t.datafifo = .block i :: data)
    (hbytes : t.contents (t.buf i) = some bytes) (count : Int) :
    Kept ⟨{ t with
      datafifo := data
      freefifo := t.freefifo ++ [.block i]
      buf := Function.update t.buf i { t.buf i with dataSize := 0 }
      passedDataLen := count }, accepted, passed ++ bytes⟩ := by
  have hplace := place_update (t := t) (i := i) (b := { t.buf i with dataSize := 0 })
    ⟨rfl, rfl, rfl⟩
  obtain ⟨rest, hrest, hacc⟩ := bytes_head h hdata hbytes
  refine ⟨⟨?_, ?_, ?_, rest, ?_, ?_⟩, ?_, ?_, h.errors, h.defSize, h.room⟩
  · have hperm := h.fifos
    dsimp only at hperm
    rw [hdata] at hperm
    refine List.Perm.trans ?_ hperm
    show ((t.freefifo ++ [Address.block i]) ++ data).Perm (t.freefifo ++ Address.block i :: data)
    rw [List.append_assoc, List.singleton_append]
  · intro j hj
    obtain ⟨h1, h2, h3⟩ := hplace j
    dsimp only
    rw [h1, h2, h3]
    exact h.memory j hj
  · intro j hj k hk hne
    dsimp only
    rw [(hplace j).1, (hplace j).2.2, (hplace k).1, (hplace k).2.2]
    exact h.apart j hj k hk hne
  · rw [← hrest]
    apply pendingBytes_rest h hdata <;> rfl
  · rw [List.append_assoc]
    exact hacc
  · intro j
    dsimp only
    rw [(hplace j).2.2]
    exact h.sizes j
  · intro j hj
    have hji : j ≠ i := fun he => head_once h.toTaskOk hdata (he ▸ hj)
    dsimp only
    rw [Function.update_of_ne hji]
    exact h.queued j (by rw [hdata]; exact List.mem_cons_of_mem _ hj)

/-- The block without its first `n` bytes. -/
def WriteTask.advanced (t : WriteTask) (i : Nat) (n count : Int) : WriteTask :=
  { t with
    buf := Function.update t.buf i { t.buf i with
      dataSize := (t.buf i).dataSize - n, writeOff := (t.buf i).writeOff + n }
    passedDataLen := count }

/-- The low-level write took the first `n` bytes of the block. -/
theorem kept_advanced (h : Kept ⟨t, accepted, passed⟩) (hdata : t.datafifo = .block i :: data)
    (hbytes : t.contents (t.buf i) = some bytes) {n : Nat} (hn : (n : Int) < (t.buf i).dataSize)
    (count : Int) :
    Kept ⟨t.advanced i n count, accepted, passed ++ bytes.take n⟩ := by
  have hplace := place_update (t := t) (i := i) (b := { t.buf i with
    dataSize := (t.buf i).dataSize - n, writeOff := (t.buf i).writeOff + n }) ⟨rfl, rfl, rfl⟩
  obtain ⟨rest, hrest, hacc⟩ := bytes_head h hdata hbytes
  have hhead : .block i ∈ t.datafifo := by rw [hdata]; exact List.mem_cons_self
  obtain ⟨hv, -, -⟩ := h.memory i (data_lt h.toTaskOk hhead)
  obtain ⟨hpos, hoff, hend⟩ := h.queued i hhead
  dsimp only at hv hpos hoff hend
  refine ⟨⟨h.fifos, ?_, ?_, bytes.drop n ++ rest, ?_, ?_⟩, ?_, ?_, h.errors, h.defSize, h.room⟩
  · intro j hj
    obtain ⟨h1, h2, h3⟩ := hplace j
    dsimp only [WriteTask.advanced]
    rw [h1, h2, h3]
    exact h.memory j hj
  · intro j hj k hk hne
    dsimp only [WriteTask.advanced]
    rw [(hplace j).1, (hplace j).2.2, (hplace k).1, (hplace k).2.2]
    exact h.apart j hj k hk hne
  · have hsplit : t.memory.load (t.buf i).dmaHandle ((t.buf i).writeOff + n)
        ((t.buf i).dataSize - n).toNat = some (bytes.drop n) := by
      have hload := (contents_eq hv).symm.trans hbytes
      have hlen : (t.buf i).dataSize.toNat = n + ((t.buf i).dataSize - n).toNat := by omega
      rw [hlen] at hload
      exact (Heap.load_split hload).2
    have hself : (t.advanced i n count).buf i = { t.buf i with
        dataSize := (t.buf i).dataSize - n, writeOff := (t.buf i).writeOff + n } :=
      Function.update_self _ _ _
    have hnow : (t.advanced i n count).contents ((t.advanced i n count).buf i) =
        some (bytes.drop n) := by
      rw [hself]
      exact (contents_eq (t := t.advanced i n count) (b := { t.buf i with
        dataSize := (t.buf i).dataSize - n, writeOff := (t.buf i).writeOff + n }) hv).trans hsplit
    have hqueue : (t.advanced i n count).datafifo = .block i :: data := hdata
    show pendingBytes (t.advanced i n count) (t.advanced i n count).datafifo = _
    have htail : pendingBytes (t.advanced i n count) data = some rest := by
      rw [← hrest]
      apply pendingBytes_rest h hdata <;> rfl
    rw [hqueue, pendingBytes, hnow, htail]
    rfl
  · rw [hacc, List.append_assoc, ← List.append_assoc (bytes.take n), List.take_append_drop]
  · intro j
    dsimp only [WriteTask.advanced]
    rw [(hplace j).2.2]
    exact h.sizes j
  · intro j hj
    dsimp only [WriteTask.advanced] at hj ⊢
    by_cases hji : j = i
    · rw [hji, Function.update_self]
      refine ⟨?_, ?_, ?_⟩ <;> dsimp only <;> omega
    · rw [Function.update_of_ne hji]
      exact h.queued j hj

/-- The work of the thread keeps the books, whatever the low-level write returns. -/
theorem kept_work (h : Kept s) (ret : Int) :
    ∃ s', taskStep s (.work ret) = some s' ∧ Kept s' := by
  obtain ⟨t, accepted, passed⟩ := s
  rw [taskStep]
  cases hdata : t.datafifo with
  | nil =>
    refine ⟨_, by rw [doWriteWorkIn, hdata]; rfl, ?_⟩
    dsimp only
    rw [List.append_nil]
    exact h
  | cons a data =>
    cases a with
    | user a =>
      exact absurd (List.mem_append_right _ (by rw [hdata]; exact List.mem_cons_self))
        (no_user h.toTaskOk (a := a))
    | block i =>
      have hhead : .block i ∈ t.datafifo := by rw [hdata]; exact List.mem_cons_self
      obtain ⟨bytes, hbytes, -⟩ := contents_some h hhead
      obtain ⟨hpos, -, -⟩ := h.queued i hhead
      dsimp only at hbytes hpos
      refine ⟨_, by rw [doWriteWorkIn, hdata]; dsimp only; rw [hbytes]; rfl, ?_⟩
      dsimp only [finishWrite]
      by_cases hagain : ret = -EAGAIN
      · rw [if_pos hagain]
        dsimp only
        rw [List.append_nil]
        exact h
      rw [if_neg hagain]
      by_cases hall : ret ≥ (t.buf i).dataSize
      · rw [if_pos hall]
        exact kept_taken h hdata hbytes _
      rw [if_neg hall]
      by_cases hsome : ret > 0
      · rw [if_pos hsome]
        have hnat : (ret.toNat : Int) = ret := Int.toNat_of_nonneg hsome.le
        have hkept := kept_advanced h hdata hbytes (n := ret.toNat) (by omega)
          (s32 (t.passedDataLen + ret))
        rw [hnat] at hkept
        exact hkept
      · rw [if_neg hsome]
        dsimp only
        rw [List.append_nil]
        exact h.congr rfl rfl rfl rfl rfl rfl rfl (show ret ≤ 0 by omega) h.defSize

end work

end MediaModules.WriteThread
