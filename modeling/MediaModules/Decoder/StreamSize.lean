import MediaModules.Decoder.ReadPointer
import MediaModules.Lib.Run

/-!
# The byte count of a stream input

`vdec_get_stream_size` and `vdec_save_input_context` read one counter of the hardware, which wraps
after 2^32 bytes, and extend it to the count of all bytes by looking at its top bit. The counter is
kept in an `int`, whose sign fills the upper word.
-/
namespace MediaModules.ReadPointer

open Lib.Run

/-- The fields of a decoder and its input that belong to the count. `size` has 32 bits, `totalRdCount`
64. -/
structure StreamVdec extends Vdec where
  size : Nat
  totalRdCount : Nat
  swapNeeded : Bool
  swapValid : Bool
  disconnecting : Bool
deriving DecidableEq, Repr

/-- The registers, with the one that only the count reads. -/
structure StreamRegisters extends Registers where
  vldMemVififoBytesAvail : Nat
deriving DecidableEq, Repr

/-- An `int` of 32 bits as a `u64`. -/
def extended (cookie : Nat) : Nat := if cookie.testBit 31 then 2 ^ 64 - 2 ^ 32 + cookie else cookie

/-- The count is taken from the registers of the target. -/
def takeCount (v : StreamVdec) (r : StreamRegisters) : StreamVdec :=
  match v.input.target with
  | .vld =>
    { v with
      input := { v.input with
        streamCookie := r.vldMemVififoWrapCount
        swapRp := r.vldMemVififoRp }
      totalRdCount := (extended r.vldMemVififoWrapCount * v.size + r.vldMemVififoRp + 2 ^ 64
        - r.vldMemVififoBytesAvail) % 2 ^ 64 }
  | .hevc =>
    let rp := saveStreamingRp v.input.streamingRp r.hevcShiftByteCount
    { v with
      input := { v.input with
        streamCookie := r.hevcShiftByteCount
        swapRp := r.hevcStreamRdPtr
        streamingRp := rp }
      totalRdCount := rp }

/-- `vdec_get_stream_size`. -/
def vdecGetStreamSize (v : StreamVdec) (r : StreamRegisters) : StreamVdec × Nat :=
  if v.streamBased then
    let taken := takeCount v r
    (taken, (taken.totalRdCount + 2 ^ 64 - v.totalRdCount) % 2 ^ 64)
  else (v, 0)

/-- `vdec_save_input_context`, with the read pointer that it sets. It fails where
`vdec_sync_input_read` does. -/
def vdecSaveInputContext (v : StreamVdec) (r : StreamRegisters) : Option (StreamVdec × Option Nat) :=
  if v.disconnecting then some (v, none)
  else if v.streamBased && v.swapNeeded then
    let saved := { takeCount v r with swapValid := true, swapNeeded := false }
    (vdecSyncInputRead saved.toVdec r.toRegisters).map fun set => (saved, set)
  else some (v, none)

/-! ## Runs -/

/-- A sample after `advance` more bytes. A context is saved when `swap_needed` was set, by
`vdec_vframe_dirty`. -/
inductive CountOp
  | getStreamSize (advance : Nat) (r : StreamRegisters)
  | saveInputContext (advance : Nat) (r : StreamRegisters)

def CountOp.advance : CountOp → Nat
  | .getStreamSize n _ => n
  | .saveInputContext n _ => n

/-- A decoder, the bytes that were consumed, and for every stream size that was asked for, what was
returned and how many bytes were consumed since the sample before. -/
structure CountRun where
  v : StreamVdec
  total : Nat
  sizes : List (Nat × Nat)

/-- What the counter of the hardware shows. -/
def counting (total : Nat) (r : StreamRegisters) : StreamRegisters :=
  { r with hevcShiftByteCount := total % 2 ^ 32 }

def countStep (s : CountRun) : CountOp → Option CountRun
  | .getStreamSize n r =>
    let done := vdecGetStreamSize s.v (counting (s.total + n) r)
    some ⟨done.1, s.total + n, s.sizes ++ [(done.2, n)]⟩
  | .saveInputContext n r =>
    (vdecSaveInputContext { s.v with swapNeeded := true } (counting (s.total + n) r)).map fun done =>
      ⟨done.1, s.total + n, s.sizes⟩

namespace CountRun

variable (s : CountRun)

/-- A stream of the HEVC input, at its start. -/
structure Start : Prop where
  streamBased : s.v.streamBased = true
  target : s.v.input.target = .hevc
  connected : s.v.disconnecting = false
  streamingRp : s.v.input.streamingRp = 0
  totalRdCount : s.v.totalRdCount = 0
  total : s.total = 0
  sizes : s.sizes = []

/-- The counts are the bytes consumed, and every stream size that was returned is the bytes since the
sample before. -/
structure Counted : Prop where
  streamingRp : s.v.input.streamingRp = s.total
  totalRdCount : s.v.totalRdCount = s.total
  sizes : ∀ p ∈ s.sizes, p.1 = p.2

/-- What a sample below half of a word keeps. -/
structure Below : Prop where
  streamBased : s.v.streamBased = true
  target : s.v.input.target = .hevc
  connected : s.v.disconnecting = false
  counted : s.Counted
  total_lt : s.total < 2 ^ 31

end CountRun

section

variable {s t : CountRun} {v : StreamVdec} {r : StreamRegisters} {n : Nat}

theorem takeCount_hevc (ht : v.input.target = .hevc) :
    (takeCount v r).input.streamingRp = saveStreamingRp v.input.streamingRp r.hevcShiftByteCount ∧
      (takeCount v r).totalRdCount =
        saveStreamingRp v.input.streamingRp r.hevcShiftByteCount := by
  simp only [takeCount, ht, and_self]

/-- Only the count changes. -/
theorem takeCount_same (v : StreamVdec) (r : StreamRegisters) :
    (takeCount v r).streamBased = v.streamBased ∧
      (takeCount v r).input.target = v.input.target ∧
      (takeCount v r).disconnecting = v.disconnecting := by
  unfold takeCount
  cases hv : v.input.target with
  | vld => exact ⟨rfl, hv, rfl⟩
  | hevc => exact ⟨rfl, hv, rfl⟩

/-- Below half of a word the extended counter is the count. -/
theorem saveStreamingRp_below {total : Nat} (h : total + n < 2 ^ 31) :
    saveStreamingRp total ((total + n) % 2 ^ 32) = total + n :=
  saveStreamingRp_low (by omega) (by omega) (by omega) (by omega)

/-- The first count from there on fills the upper word. -/
theorem saveStreamingRp_above {total : Nat} (ht : total < 2 ^ 31) (hn : n < 2 ^ 31)
    (h : 2 ^ 31 ≤ total + n) : saveStreamingRp total ((total + n) % 2 ^ 32) ≠ total + n := by
  rw [saveStreamingRp_high (by omega) (by omega)]
  omega

theorem vdecSaveInputContext_takes {done : StreamVdec × Option Nat} (hbased : v.streamBased = true)
    (hconnected : v.disconnecting = false) (hneeded : v.swapNeeded = true)
    (h : vdecSaveInputContext v r = some done) :
    done.1 = { takeCount v r with swapValid := true, swapNeeded := false } := by
  simp only [vdecSaveInputContext, hconnected, hbased, hneeded, Bool.false_eq_true, if_false,
    Bool.and_true, if_true, Option.map_eq_some_iff] at h
  obtain ⟨set, -, rfl⟩ := h
  rfl

/-- Every sample takes the count, whichever of the two functions makes it. -/
theorem countStep_takes {op : CountOp} (h : s.Below) (hs : countStep s op = some t) :
    t.total = s.total + op.advance ∧
      t.v.streamBased = true ∧ t.v.input.target = .hevc ∧ t.v.disconnecting = false ∧
      t.v.input.streamingRp = saveStreamingRp s.total ((s.total + op.advance) % 2 ^ 32) ∧
      t.v.totalRdCount = saveStreamingRp s.total ((s.total + op.advance) % 2 ^ 32) := by
  cases op with
  | getStreamSize n r =>
    obtain rfl := Option.some.inj hs
    have hcount := takeCount_hevc (r := counting (s.total + n) r) h.target
    have hsame := takeCount_same s.v (counting (s.total + n) r)
    rw [h.counted.streamingRp] at hcount
    simp only [vdecGetStreamSize, h.streamBased, if_true]
    exact ⟨rfl, hsame.1.trans h.streamBased, hsame.2.1.trans h.target,
      hsame.2.2.trans h.connected, hcount.1, hcount.2⟩
  | saveInputContext n r =>
    obtain ⟨done, hdone, rfl⟩ := Option.map_eq_some_iff.mp hs
    let v : StreamVdec := { s.v with swapNeeded := true }
    have htakes := vdecSaveInputContext_takes (v := v) h.streamBased h.connected rfl hdone
    have hcount := takeCount_hevc (v := v) (r := counting (s.total + n) r) h.target
    have hsame := takeCount_same v (counting (s.total + n) r)
    have hrp : v.input.streamingRp = s.total := h.counted.streamingRp
    rw [hrp] at hcount
    rw [htakes]
    exact ⟨rfl, hsame.1.trans h.streamBased, hsame.2.1.trans h.target,
      hsame.2.2.trans h.connected, hcount.1, hcount.2⟩

theorem countStep_sizes {op : CountOp} (h : s.Below) (hlt : s.total + op.advance < 2 ^ 31)
    (hs : countStep s op = some t) : ∀ p ∈ t.sizes, p.1 = p.2 := by
  cases op with
  | getStreamSize n r =>
    obtain rfl := Option.some.inj hs
    intro p hp
    rcases List.mem_append.mp hp with hp | hp
    · exact h.counted.sizes p hp
    · rw [List.mem_singleton.mp hp]
      have hcount := (takeCount_hevc (r := counting (s.total + n) r) h.target).2
      have hbelow : saveStreamingRp s.total ((s.total + n) % 2 ^ 32) = s.total + n :=
        saveStreamingRp_below hlt
      rw [h.counted.streamingRp] at hcount
      have htaken : (takeCount s.v (counting (s.total + n) r)).totalRdCount = s.total + n :=
        hcount.trans hbelow
      have hlt' : s.total + n < 2 ^ 31 := hlt
      simp only [vdecGetStreamSize, h.streamBased, if_true, htaken, h.counted.totalRdCount]
      omega
  | saveInputContext n r =>
    obtain ⟨done, -, rfl⟩ := Option.map_eq_some_iff.mp hs
    exact h.counted.sizes

theorem countStep_below {op : CountOp} (h : s.Below) (hlt : s.total + op.advance < 2 ^ 31)
    (hs : countStep s op = some t) : t.Below := by
  obtain ⟨htotal, hbased, htarget, hconnected, hrp, hcount⟩ := countStep_takes h hs
  rw [saveStreamingRp_below hlt, ← htotal] at hrp hcount
  exact ⟨hbased, htarget, hconnected, ⟨hrp, hcount, countStep_sizes h hlt hs⟩, htotal ▸ hlt⟩

/-- A sample from the upper half of a word is no count. -/
theorem countStep_breaks {op : CountOp} (h : s.Below) (hn : op.advance < 2 ^ 31)
    (hge : ¬ s.total + op.advance < 2 ^ 31) (hs : countStep s op = some t) : ¬ t.Counted := by
  obtain ⟨htotal, -, -, -, hrp, -⟩ := countStep_takes h hs
  intro hcounted
  have hcount := hcounted.streamingRp
  rw [hrp, htotal] at hcount
  exact saveStreamingRp_above h.total_lt hn (Nat.not_lt.mp hge) hcount

theorem countStep_total {op : CountOp} (hs : countStep s op = some t) :
    t.total = s.total + op.advance := by
  cases op with
  | getStreamSize n r =>
    obtain rfl := Option.some.inj hs
    rfl
  | saveInputContext n r =>
    obtain ⟨done, -, rfl⟩ := Option.map_eq_some_iff.mp hs
    rfl

theorem total_le_run {ops : List CountOp} (hr : run countStep s ops = some t) :
    s.total ≤ t.total := by
  induction ops generalizing s with
  | nil => exact le_of_eq (congrArg CountRun.total (Option.some.inj hr))
  | cons op ops ih =>
    obtain ⟨s', hs, hrest⟩ := run_cons_some.mp hr
    have htotal := countStep_total hs
    have hle := ih hrest
    omega

/-- Every sample of a run stays below half of a word exactly when its last count does. -/
theorem guarded_below_iff {ops : List CountOp} (hs : s.total < 2 ^ 31)
    (hr : run countStep s ops = some t) :
    Guarded countStep (fun s op => s.total + op.advance < 2 ^ 31) s ops ↔ t.total < 2 ^ 31 := by
  induction ops generalizing s with
  | nil =>
    rw [← Option.some.inj hr]
    exact iff_of_true trivial hs
  | cons op ops ih =>
    obtain ⟨s', hstep, hrest⟩ := run_cons_some.mp hr
    have htotal := countStep_total hstep
    simp only [Guarded, hstep, Option.some.injEq, forall_eq']
    constructor
    · rintro ⟨hlt, hg⟩
      exact (ih (htotal ▸ hlt) hrest).mp hg
    · intro hlt
      have hle := total_le_run hrest
      have hlt' : s'.total < 2 ^ 31 := by omega
      exact ⟨htotal ▸ hlt', (ih hlt' hrest).mpr hlt⟩

/-- The counts are right after every call of a run whose samples lie less than half of a word apart
exactly when it ends below 2^31 bytes. -/
theorem counts_right_iff {ops : List CountOp} (hs : s.Start)
    (hops : ∀ op ∈ ops, op.advance < 2 ^ 31) (hr : run countStep s ops = some t) :
    Always countStep CountRun.Counted s ops ↔ t.total < 2 ^ 31 := by
  have hcounted : s.Counted := by
    refine ⟨hs.streamingRp.trans hs.total.symm, hs.totalRdCount.trans hs.total.symm, ?_⟩
    rw [hs.sizes]
    exact nofun
  have hzero : s.total < 2 ^ 31 := by
    have htotal := hs.total
    omega
  have hbelow : s.Below := ⟨hs.streamBased, hs.target, hs.connected, hcounted, hzero⟩
  rw [← guarded_below_iff hzero hr]
  exact always_iff_guarded (D := fun op => op.advance < 2 ^ 31) (fun _ h => h.counted)
    (fun _ _ _ h _ hok hstep => countStep_below h hok hstep)
    (fun _ _ _ h hn hok hstep => countStep_breaks h hn hok hstep) hbelow hops hr

/-- A new stream on the HEVC input. -/
def newStream : CountRun where
  v :=
    { type := .streamParser
      dual := false
      input := ⟨.hevc, 0, 0, 0⟩
      size := 0x100000
      totalRdCount := 0
      swapNeeded := false
      swapValid := false
      disconnecting := false }
  total := 0
  sizes := []

theorem newStream_start : newStream.Start := ⟨rfl, rfl, rfl, rfl, rfl, rfl, rfl⟩

def noRegisters : StreamRegisters := ⟨⟨0, 0, 0, 0⟩, 0⟩

theorem counts_right_iff_threeSamples : ∃ t,
    run countStep newStream [.getStreamSize 1000 noRegisters, .saveInputContext 500 noRegisters,
      .getStreamSize 10 noRegisters] = some t ∧ t.sizes = [(1000, 1000), (10, 10)] ∧
      Always countStep CountRun.Counted newStream [.getStreamSize 1000 noRegisters,
        .saveInputContext 500 noRegisters, .getStreamSize 10 noRegisters] := by
  refine ⟨_, rfl, rfl, (counts_right_iff newStream_start ?_ rfl).mpr (by decide)⟩
  decide

/-- Two samples, the second one at 2^31 bytes. -/
theorem half_word_miscounted : ∃ t,
    run countStep newStream [.getStreamSize (2 ^ 31 - 1) noRegisters,
      .getStreamSize 1 noRegisters] = some t ∧ t.total = 2 ^ 31 ∧
      t.v.input.streamingRp = 2 ^ 64 - 2 ^ 31 ∧
      t.sizes = [(2 ^ 31 - 1, 2 ^ 31 - 1), (2 ^ 64 - 2 ^ 32 + 1, 1)] ∧ ¬ t.Counted := by
  refine ⟨_, rfl, rfl, by decide, by decide, fun h => ?_⟩
  exact absurd h.totalRdCount (by decide)

end

end MediaModules.ReadPointer
