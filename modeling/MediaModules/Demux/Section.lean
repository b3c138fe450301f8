import Mathlib.Tactic.Common
import MediaModules.Demux.Crc32
import MediaModules.Demux.Types

/-!
# Section filters and the section buffer

`sec_filter_match`, `sec_data` and `pid_filter_data`. A copy outside the 4099-byte section
buffer, a negative copy length and a loop without progress are all `none`; the invariant
`SecOk` shows that none of them happens.
-/
namespace MediaModules.Demux

open MediaModules.Lib.Buffer

/-! ## Parameters and matching -/

/-- The array index of filter byte `i`: the two length bytes are skipped. -/
def secFieldIndex (i : Fin secFilterLen) : Fin (secFilterLen + 2) :=
  if i = 0 then 0 else i.natAdd 2 |>.cast (by decide)

/-- One array of a section filter, as the loop of `swdmx_sec_filter_set_params` and the
assignments after it leave it. Every entry is written. -/
def secFieldArray (v : Fin secFilterLen → UInt8) : Fin (secFilterLen + 2) → UInt8 :=
  let a := (List.finRange secFilterLen).foldl
    (fun a i => Function.update a (secFieldIndex i) (v i)) (fun _ => 0)
  Function.update (Function.update a 1 0) 2 0

/-- The filter byte stored in an entry of a section filter's arrays; the two length bytes
have none. -/
def secFieldSource (j : Fin (secFilterLen + 2)) : Option (Fin secFilterLen) :=
  if j.val = 0 then some 0
  else if h : 3 ≤ j.val then some ⟨j.val - 2, by have := j.isLt; omega⟩
  else none

/-- What `swdmx_sec_filter_set_params` stores for accepted parameters. -/
def secConfigOf (params : SecParams) : SecConfig where
  params := params
  value := secFieldArray params.value
  mam := secFieldArray fun i => params.mask i &&& ~~~(params.mode i)
  manm := secFieldArray fun i => params.mask i &&& ~~~(~~~(params.mode i))

/-- The accumulators of `sec_filter_match`. -/
structure MatchAcc where
  m : UInt8
  n : UInt8
  hasN : UInt8

/-- One round of the loop of `sec_filter_match`. -/
def matchStep (data : List UInt8) (f : SecConfig) (acc : MatchAcc) (i : Fin secFilterLen) :
    MatchAcc :=
  let j : Fin (secFilterLen + 2) := i.castAdd 2
  let d := data.getD i 0
  { m := acc.m ||| ((d &&& f.mam j) ^^^ (f.value j &&& f.mam j))
    n := acc.n ||| ((d &&& f.manm j) ^^^ (f.value j &&& f.manm j))
    hasN := acc.hasN ||| f.manm j }

/-- `sec_filter_match`. Its `len` argument is not used. -/
def secFilterMatch (data : List UInt8) (f : SecConfig) : Bool :=
  let acc := (List.finRange secFilterLen).foldl (matchStep data f) ⟨0, 0, 0⟩
  if acc.m ≠ 0 then false
  else if acc.hasN ≠ 0 ∧ acc.n = 0 then false
  else true

/-! ## Delivery of a completed section -/

/-- A filter whose callbacks are run, and the callbacks. -/
structure Delivery where
  filter : Ref
  cbs : List CbEntry
  deriving Repr, DecidableEq

/-- A completed section and the filters it was delivered to, in order. -/
structure Completion where
  data : List UInt8
  calls : List Delivery
  deriving Repr, DecidableEq

/-- The filter loop of `sec_data` on a complete section of `recv` bytes; `crc` is its local
flag. A CRC failure leaves the loop. -/
def secDeliver (sec : List UInt8) (recv : Nat) : Bool → List SecFilter → List Delivery
  | _, [] => []
  | crc, f :: fs =>
    let check := decide (SecParams.crc32 (SecConfig.params f.config) ≠ 0) && !crc
    if check ∧ swdmxCrc32 (sec.take recv) ≠ 0 then []
    else if !secFilterMatch sec f.config then secDeliver sec recv (crc || check) fs
    else ⟨f.ref, f.cbList⟩ :: secDeliver sec recv (crc || check) fs

/-- The record of a section completed in the buffer `sec`. -/
def complete (fs : List SecFilter) (sec : Block UInt8 secDataSize) (recv : Nat) : Completion :=
  ⟨sec.cells.take recv, secDeliver sec.cells recv false fs⟩

/-! ## Section data -/

/-- `sec_len` as computed from the header in the buffer. -/
def secLen (sec : List UInt8) : Nat :=
  ((((sec.getD 1 0).toNat &&& 0xf) <<< 8) ||| (sec.getD 2 0).toNat) + 3

/-- The buffer after a call of `sec_data`, the bytes it consumed, and the section it
completed, if any. -/
structure SecStep where
  sec : Block UInt8 secDataSize
  recv : Nat
  used : Nat
  done : List Completion

/-- `sec_data` on `sec_data`/`sec_recv` and the bytes `p`. -/
def secData (fs : List SecFilter) (sec : Block UInt8 secDataSize) (recv : Nat)
    (p : List UInt8) : Option SecStep := do
  let n := if recv < 3 then min p.length (3 - recv) else 0
  let sec ← sec.copy recv (p.take n)
  let left := p.drop n
  let recv := recv + n
  if recv < 3 then return ⟨sec, recv, p.length, []⟩
  else if sec.cells.getD 0 0 = 0xff then return ⟨sec, recv, p.length, []⟩
  -- `min` would be negative and the copy length huge
  else if secLen sec.cells < recv then none
  else do
    let len := secLen sec.cells
    let n := min (len - recv) left.length
    let sec ← sec.copy recv (left.take n)
    let left := left.drop n
    let recv := recv + n
    if recv = len then return ⟨sec, 0, p.length - left.length, [complete fs sec recv]⟩
    else return ⟨sec, recv, p.length - left.length, []⟩

/-- The `while (left > 0)` loop of `pid_filter_data`; without progress it runs out of fuel. -/
def secLoop (fs : List SecFilter) : Nat → Block UInt8 secDataSize → Nat → List UInt8 →
    Option (Block UInt8 secDataSize × Nat × List Completion)
  | 0, sec, recv, p => if p.length = 0 then some (sec, recv, []) else none
  | fuel + 1, sec, recv, p =>
    if p.length = 0 then some (sec, recv, [])
    else do
      let r ← secData fs sec recv p
      let q ← secLoop fs fuel r.sec r.recv (p.drop r.used)
      return (q.1, q.2.1, r.done ++ q.2.2)

/-- What one packet makes a PID filter do: the TS filters it is handed to, in order, and
the sections it completes. -/
structure Output where
  ts : List Delivery
  sections : List Completion
  deriving Repr, DecidableEq

/-- The bytes before the pointer field's target: they end the section in progress, if any. -/
def secPointer (fs : List SecFilter) (sec : Block UInt8 secDataSize) (recv : Nat)
    (p : List UInt8) : Option SecStep :=
  if recv ≠ 0 then secData fs sec recv p else some ⟨sec, recv, 0, []⟩

/-- The section part of `pid_filter_data` on a payload. -/
def secPayload (fs : List SecFilter) (sec : Block UInt8 secDataSize) (recv : Nat)
    (start : UInt8) (payload : List UInt8) :
    Option (Block UInt8 secDataSize × Nat × List Completion) :=
  if start ≠ 0 then
    match payload with
    | [] => some (sec, 0, [])
    | b :: p =>
      let ptr := b.toNat
      if ptr = 0 then secLoop fs p.length sec 0 p
      -- illegal pointer field: the packet is dropped and `sec_recv` stays
      else if p.length < ptr then some (sec, recv, [])
      else do
        let r ← secPointer fs sec recv (p.take ptr)
        let q ← secLoop fs p.length r.sec 0 (p.drop ptr)
        return (q.1, q.2.1, r.done ++ q.2.2)
  else secLoop fs payload.length sec recv payload

/-- `pid_filter_data` on the filters linked in the PID filter. `heap` is what `swdmx_malloc`
returns when the section buffer is allocated. -/
def pidFilterData (heap : Block UInt8 secDataSize) (tsFilters : List TsFilter)
    (fs : List SecFilter) (st : SecState) (pkt : Tspacket) : Option (Output × SecState) :=
  let ts := tsFilters.map fun f => ⟨f.ref, f.cbList⟩
  if fs.length = 0 then some (⟨ts, []⟩, st)
  else match pkt.payload with
  | none => some (⟨ts, []⟩, st)
  | some payload =>
    if pkt.scramble ≠ 0 then some (⟨ts, []⟩, st)
    else do
      let r ← secPayload fs (st.secData.getD heap) st.secRecv pkt.payloadStart payload
      return (⟨ts, r.2.2⟩, ⟨some r.1, r.2.1⟩)

/-! ## What one call of `sec_data` does -/

/-- The states `sec_data` leaves: an incomplete header, stuffing, or an incomplete section. -/
def SecOk (sec : List UInt8) (recv : Nat) : Prop :=
  recv < 3 ∨ (recv = 3 ∧ sec.getD 0 0 = 0xff) ∨
    (3 ≤ recv ∧ sec.getD 0 0 ≠ 0xff ∧ recv < secLen sec)

theorem secLen_ge (sec : List UInt8) : 3 ≤ secLen sec := by
  unfold secLen
  omega

theorem secLen_le (sec : List UInt8) : secLen sec ≤ 4098 := by
  have h1 : (sec.getD 1 0).toNat &&& 0xf < 2 ^ 4 := Nat.and_lt_two_pow _ (by decide)
  have h2 : ((sec.getD 1 0).toNat &&& 0xf) <<< 8 < 2 ^ 12 := by
    rw [Nat.shiftLeft_eq]
    omega
  have h3 : (sec.getD 2 0).toNat < 2 ^ 12 :=
    Nat.lt_trans (sec.getD 2 0).toNat_lt (by decide)
  have h4 := Nat.or_lt_two_pow h2 h3
  unfold secLen
  omega

theorem getD_of_take_eq {l l' : List UInt8} {k i : Nat} (h : l.take k = l'.take k) (hi : i < k) :
    l.getD i 0 = l'.getD i 0 := by
  have h1 : (l.take k)[i]? = (l'.take k)[i]? := by rw [h]
  rw [List.getElem?_take_of_lt hi, List.getElem?_take_of_lt hi] at h1
  simp only [List.getD_eq_getElem?_getD, h1]

/-- The section length depends on the header alone. -/
theorem secLen_congr {sec sec' : List UInt8} (h : sec.take 3 = sec'.take 3) :
    secLen sec = secLen sec' := by
  unfold secLen
  rw [getD_of_take_eq h (by decide), getD_of_take_eq h (by decide)]

/-- How a call of `sec_data` on `p` ends. -/
inductive SecOutcome (fs : List SecFilter) (sec : Block UInt8 secDataSize) (recv : Nat)
    (p : List UInt8) : SecStep → Prop
  /-- the header is still incomplete -/
  | header {sec'} : recv + p.length < 3 → sec.Wrote recv p sec' →
      SecOutcome fs sec recv p ⟨sec', recv + p.length, p.length, []⟩
  /-- the header starts with `0xff`: everything else is stuffing -/
  | stuffing {sec'} {n : Nat} : n ≤ p.length → recv + n = 3 → sec.Wrote recv (p.take n) sec' →
      sec'.cells.getD 0 0 = 0xff → SecOutcome fs sec recv p ⟨sec', 3, p.length, []⟩
  /-- the section goes on behind `p` -/
  | body {sec'} : sec.Wrote recv p sec' → 3 ≤ recv + p.length → sec'.cells.getD 0 0 ≠ 0xff →
      recv + p.length < secLen sec'.cells →
      SecOutcome fs sec recv p ⟨sec', recv + p.length, p.length, []⟩
  /-- the section ends in `p` -/
  | done {sec'} {n : Nat} : n ≤ p.length → sec.Wrote recv (p.take n) sec' →
      sec'.cells.getD 0 0 ≠ 0xff → recv + n = secLen sec'.cells →
      SecOutcome fs sec recv p ⟨sec', 0, n, [complete fs sec' (recv + n)]⟩

/-- `sec_data` never fails from a state it has left, and ends in one of four ways. -/
theorem secData_outcome (fs : List SecFilter) {sec : Block UInt8 secDataSize} {recv : Nat}
    (hok : SecOk sec.cells recv) (p : List UInt8) :
    ∃ r, secData fs sec recv p = some r ∧ SecOutcome fs sec recv p r := by
  have hrecv : recv ≤ 4098 := by
    have := secLen_le sec.cells
    rcases hok with h | ⟨h, -⟩ | ⟨-, -, h⟩ <;> omega
  obtain ⟨n, hn⟩ : ∃ n, (if recv < 3 then min p.length (3 - recv) else 0) = n := ⟨_, rfl⟩
  have hnp : n ≤ p.length := by split at hn <;> omega
  have hlen : (p.take n).length = n := by rw [List.length_take]; omega
  have hsize : secDataSize = 4099 := rfl
  obtain ⟨sec₁, hc₁, hw₁⟩ := sec.copy_of_le recv (p.take n)
    (by rw [hlen, hsize]; split at hn <;> omega)
  simp only [secData, hn, hc₁, Option.bind_some, Option.bind_eq_bind]
  by_cases hshort : recv + n < 3
  · have hall : p.length = n := by split at hn <;> omega
    rw [if_pos hshort]
    refine ⟨_, rfl, ?_⟩
    rw [← hall] at hshort hw₁ ⊢
    rw [List.take_length] at hw₁
    exact .header hshort hw₁
  rw [if_neg hshort]
  by_cases hff : sec₁.cells.getD 0 0 = 0xff
  · rw [if_pos hff]
    have h3 : recv + n = 3 := by
      by_cases hr : recv < 3
      · rw [if_pos hr] at hn; omega
      · rw [if_neg hr] at hn
        rcases hok with h | ⟨h, -⟩ | ⟨h, hne, -⟩
        · omega
        · omega
        · exact absurd ((getD_of_take_eq (hw₁.take_of_le (by omega) h) (by omega)).symm.trans hff) hne
    refine ⟨_, rfl, ?_⟩
    rw [h3]
    exact .stuffing hnp h3 hw₁ hff
  rw [if_neg hff]
  -- with the header in the buffer, the rest of the section is copied behind it
  have hle : recv + n ≤ secLen sec₁.cells := by
    have hge := secLen_ge sec₁.cells
    by_cases hr : recv < 3
    · rw [if_pos hr] at hn; omega
    · rw [if_neg hr] at hn
      have htake : ∀ k, k ≤ recv → sec₁.cells.take k = sec.cells.take k :=
        fun k hk => hw₁.take_of_le (by omega) hk
      rcases hok with h | ⟨h, hf⟩ | ⟨h, -, hlt⟩
      · omega
      · omega
      · rw [secLen_congr (htake 3 h)]; omega
  rw [if_neg (by omega)]
  obtain ⟨m, hm⟩ : ∃ m, min (secLen sec₁.cells - (recv + n)) (p.drop n).length = m := ⟨_, rfl⟩
  have hml : ((p.drop n).take m).length = m := by rw [List.length_take]; omega
  have hmp : n + m ≤ p.length := by rw [List.length_drop] at hm; omega
  have hle' := secLen_le sec₁.cells
  obtain ⟨sec₂, hc₂, hw₂⟩ := sec₁.copy_of_le (recv + n) ((p.drop n).take m)
    (by rw [hml, hsize]; omega)
  have hw : sec.Wrote recv (p.take (n + m)) sec₂ := by
    rw [List.take_add]
    exact hw₁.append (by rw [hlen]; exact hw₂)
  have htake : sec₂.cells.take 3 = sec₁.cells.take 3 := hw₂.take_of_le (by omega) (by omega)
  have hlen₂ := secLen_congr htake
  have hff₂ : sec₂.cells.getD 0 0 ≠ 0xff := by
    rw [getD_of_take_eq htake (by decide)]
    exact hff
  simp only [hm, hc₂, Option.bind_some]
  by_cases hend : recv + n + m = secLen sec₁.cells
  · rw [if_pos hend]
    refine ⟨_, rfl, ?_⟩
    have hused : p.length - ((p.drop n).drop m).length = n + m := by
      rw [List.length_drop, List.length_drop]
      omega
    rw [hused, Nat.add_assoc]
    exact .done hmp hw hff₂ (by rw [hlen₂]; omega)
  · rw [if_neg hend]
    refine ⟨_, rfl, ?_⟩
    have hall : n + m = p.length := by rw [List.length_drop] at hm; omega
    have hused : p.length - ((p.drop n).drop m).length = p.length := by
      rw [List.length_drop, List.length_drop]
      omega
    rw [hused, Nat.add_assoc, hall]
    rw [hall, List.take_length] at hw
    exact .body hw (by omega) hff₂ (by rw [hlen₂]; omega)

/-- A completion comes from running the filter loop on the buffer at the section's end. -/
def Made (fs : List SecFilter) (c : Completion) : Prop :=
  ∃ (sec : Block UInt8 secDataSize) (n : Nat), n ≤ secDataSize ∧ c = complete fs sec n

namespace SecOutcome

variable {fs : List SecFilter} {sec : Block UInt8 secDataSize} {recv : Nat} {p : List UInt8}
  {r : SecStep}

theorem ok (h : SecOutcome fs sec recv p r) : SecOk r.sec.cells r.recv := by
  cases h with
  | header h _ => exact Or.inl h
  | stuffing _ _ _ h => exact Or.inr (Or.inl ⟨rfl, h⟩)
  | body _ h3 hff hlt => exact Or.inr (Or.inr ⟨h3, hff, hlt⟩)
  | done _ _ _ _ => exact Or.inl (by decide : (0 : Nat) < 3)

/-- A nonempty call makes progress: a section that ends has at least one byte to come. -/
theorem used_pos (h : SecOutcome fs sec recv p r) (hok : SecOk sec.cells recv) (hp : p ≠ []) :
    0 < r.used := by
  have hpos : 0 < p.length := List.length_pos_iff.mpr hp
  cases h with
  | header | stuffing | body => exact hpos
  | @done sec' n hn hw hff hlen =>
    rcases Nat.eq_zero_or_pos n with rfl | hn0
    · have hle := secLen_le sec'.cells
      have hsize : secDataSize = 4099 := rfl
      have hge := secLen_ge sec'.cells
      have htake := hw.take_of_le (by omega) (Nat.le_refl recv)
      rcases hok with h | ⟨h, hf⟩ | ⟨h, -, hlt⟩
      · omega
      · exact absurd ((getD_of_take_eq htake (by omega)).trans hf) hff
      · have h3 := secLen_congr (hw.take_of_le (by omega) h)
        omega
    · exact hn0

theorem made (h : SecOutcome fs sec recv p r) : ∀ c ∈ r.done, Made fs c := by
  cases h with
  | header | stuffing | body => exact fun c hc => absurd hc List.not_mem_nil
  | @done sec' n _ _ _ hlen =>
    intro c hc
    have hle := secLen_le sec'.cells
    exact ⟨sec', recv + n, by have : secDataSize = 4099 := rfl; omega, List.mem_singleton.mp hc⟩

end SecOutcome

/-! ## The loop and the packet -/

/-- The loop ends: every round consumes at least one byte. -/
theorem secLoop_total (fs : List SecFilter) :
    ∀ (fuel : Nat) {sec : Block UInt8 secDataSize} {recv : Nat} (p : List UInt8),
      SecOk sec.cells recv → p.length ≤ fuel →
      ∃ sec' recv' cs, secLoop fs fuel sec recv p = some (sec', recv', cs) ∧
        SecOk sec'.cells recv' ∧ ∀ c ∈ cs, Made fs c := by
  intro fuel
  induction fuel with
  | zero =>
    intro sec recv p hok hf
    refine ⟨sec, recv, [], if_pos (by omega), hok, fun c hc => absurd hc List.not_mem_nil⟩
  | succ fuel ih =>
    intro sec recv p hok hf
    rw [secLoop]
    by_cases hp : p.length = 0
    · rw [if_pos hp]
      exact ⟨sec, recv, [], rfl, hok, fun c hc => absurd hc List.not_mem_nil⟩
    · rw [if_neg hp]
      obtain ⟨r, hr, ho⟩ := secData_outcome fs hok p
      have hpos := ho.used_pos hok (by intro h; exact hp (by rw [h]; rfl))
      obtain ⟨sec', recv', cs, h1, h2, h3⟩ := ih (p.drop r.used) ho.ok
        (by rw [List.length_drop]; omega)
      simp only [hr, Option.bind_some, Option.bind_eq_bind, h1]
      refine ⟨sec', recv', r.done ++ cs, rfl, h2, ?_⟩
      intro c hc
      rcases List.mem_append.mp hc with hc | hc
      · exact ho.made c hc
      · exact h3 c hc

theorem secOk_zero (sec : List UInt8) : SecOk sec 0 := Or.inl (by decide)

theorem secPointer_total (fs : List SecFilter) {sec : Block UInt8 secDataSize} {recv : Nat}
    (hok : SecOk sec.cells recv) (p : List UInt8) :
    ∃ r, secPointer fs sec recv p = some r ∧ ∀ c ∈ r.done, Made fs c := by
  unfold secPointer
  by_cases h0 : recv ≠ 0
  · obtain ⟨r, h1, h2⟩ := secData_outcome fs hok p
    exact ⟨r, by rw [if_pos h0, h1], h2.made⟩
  · exact ⟨_, if_neg h0, fun c hc => absurd hc List.not_mem_nil⟩

theorem secPayload_total (fs : List SecFilter) {sec : Block UInt8 secDataSize} {recv : Nat}
    (hok : SecOk sec.cells recv) (start : UInt8) (payload : List UInt8) :
    ∃ sec' recv' cs, secPayload fs sec recv start payload = some (sec', recv', cs) ∧
      SecOk sec'.cells recv' ∧ ∀ c ∈ cs, Made fs c := by
  unfold secPayload
  by_cases hs : start ≠ 0
  · rw [if_pos hs]
    cases payload with
    | nil => exact ⟨sec, 0, [], rfl, secOk_zero _, fun c hc => absurd hc List.not_mem_nil⟩
    | cons b p =>
      dsimp only
      split
      · exact secLoop_total fs _ p (secOk_zero _) (Nat.le_refl _)
      split
      · exact ⟨sec, recv, [], rfl, hok, fun c hc => absurd hc List.not_mem_nil⟩
      rename_i hb hl
      obtain ⟨r, h1, h2⟩ := secPointer_total fs hok (p.take b.toNat)
      obtain ⟨sec', recv', cs, h3, h4, h5⟩ := secLoop_total fs p.length (p.drop b.toNat)
        (secOk_zero r.sec.cells) (by rw [List.length_drop]; omega)
      simp only [h1, Option.bind_some, Option.bind_eq_bind, h3]
      refine ⟨sec', recv', r.done ++ cs, rfl, h4, ?_⟩
      intro c hc
      rcases List.mem_append.mp hc with hc | hc
      · exact h2 c hc
      · exact h5 c hc
  · rw [if_neg hs]
    exact secLoop_total fs _ payload hok (Nat.le_refl _)

/-- The invariant of a PID filter's section buffer. -/
def SecState.Ok (st : SecState) : Prop :=
  match st.secData with
  | none => st.secRecv = 0
  | some sec => SecOk sec.cells st.secRecv

theorem SecState.Ok.buffer {st : SecState} (h : st.Ok) (heap : Block UInt8 secDataSize) :
    SecOk (st.secData.getD heap).cells st.secRecv := by
  obtain ⟨sec, recv⟩ := st
  cases sec with
  | none => exact Or.inl (by change recv < 3; rw [show recv = 0 from h]; decide)
  | some sec => exact h

/-- A PID filter accepts every packet, hands it to each of its TS filters, and completes
sections only by running the filter loop. -/
theorem pidFilterData_total (heap : Block UInt8 secDataSize) (tsFilters : List TsFilter)
    (fs : List SecFilter) {st : SecState} (hok : st.Ok) (pkt : Tspacket) :
    ∃ out st', pidFilterData heap tsFilters fs st pkt = some (out, st') ∧ st'.Ok ∧
      out.ts = tsFilters.map (fun f => ⟨f.ref, f.cbList⟩) ∧
      ∀ c ∈ out.sections, Made fs c := by
  unfold pidFilterData
  dsimp only
  split
  · exact ⟨_, _, rfl, hok, rfl, fun c hc => absurd hc List.not_mem_nil⟩
  split
  · exact ⟨_, _, rfl, hok, rfl, fun c hc => absurd hc List.not_mem_nil⟩
  split
  · exact ⟨_, _, rfl, hok, rfl, fun c hc => absurd hc List.not_mem_nil⟩
  rename_i payload _ _
  obtain ⟨sec', recv', cs, h1, h2, h3⟩ :=
    secPayload_total fs (hok.buffer heap) pkt.payloadStart payload
  simp only [h1, Option.bind_some, Option.bind_eq_bind]
  exact ⟨_, _, rfl, h2, rfl, h3⟩

end MediaModules.Demux
