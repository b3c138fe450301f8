import Mathlib.Tactic.Common
import MediaModules.Demux.Reassembly

/-!
# What the delivery of a section depends on

Two runs on one PID that complete the same section are compared at a filter with the same
parameters. `Settled` is the exact condition on the section and the parameters under which
the other filters and the sections received earlier make no difference.
-/
namespace MediaModules.Demux

open MediaModules.Lib.Buffer

/-! ## Observations -/

/-- A packet of the PID, and section filters of that PID as the setter configures them. -/
structure PidCall.On (pid : UInt16) (c : PidCall) : Prop where
  pkt_pid : c.pkt.pid = pid
  refs_nodup : (c.secFilters.map Filter.ref).Nodup
  configured : ∀ f ∈ c.secFilters, ∃ params : SecParams,
    f.config = secConfigOf params ∧ params.pid = pid

/-- A run on the PID of `params` from a new PID filter, one of the sections equal to `bytes`
that it completes, and a filter with the parameters `params` that is linked in at that time. -/
structure Observation (params : SecParams) (bytes : List UInt8) where
  heap : Block UInt8 secDataSize
  calls : List PidCall
  outs : List Output
  final : SecState
  on_pid : ∀ c ∈ calls, c.On params.pid
  run_eq : pidFilterRun heap secStateInit calls = some (outs, final)
  call : PidCall
  out : Output
  call_mem : (call, out) ∈ calls.zip outs
  completion : Completion
  completion_mem : completion ∈ out.sections
  data_eq : completion.data = bytes
  filter : SecFilter
  filter_mem : filter ∈ call.secFilters
  filter_config : filter.config = secConfigOf params

/-- The filter's callbacks are invoked for the section. -/
def Observation.Invoked {params : SecParams} {bytes : List UInt8}
    (o : Observation params bytes) : Prop :=
  o.filter.ref ∈ o.completion.calls.map Delivery.filter

/-! ## The condition -/

section

variable (s : PsiSection) (params : SecParams)

/-- A compared byte lies inside the section. -/
def Inside (i : Fin secFilterLen) : Prop := i.val < s.bytes.length

instance (i : Fin secFilterLen) : Decidable (Inside s i) := inferInstanceAs (Decidable (_ < _))

instance (data : List UInt8) (f : SecConfig) (mask : Fin (secFilterLen + 2) → UInt8)
    (i : Fin secFilterLen) : Decidable (Agree data f mask i) :=
  inferInstanceAs (Decidable (_ = _))

/-- A byte inside the section contradicts the positive mask. -/
def Clash : Prop :=
  ∃ i, Inside s i ∧ ¬ Agree s.bytes (secConfigOf params) (secConfigOf params).mam i

/-- The positive mask compares a byte behind the section. -/
def OpenPositive : Prop :=
  ∃ i : Fin secFilterLen, ¬ Inside s i ∧ (secConfigOf params).mam (i.castAdd 2) ≠ 0

/-- There is a negative mask. -/
def HasNegative : Prop :=
  ∃ i : Fin secFilterLen, (secConfigOf params).manm (i.castAdd 2) ≠ 0

/-- A byte inside the section differs from the value under the negative mask. -/
def NegativeHit : Prop :=
  ∃ i, Inside s i ∧ ¬ Agree s.bytes (secConfigOf params) (secConfigOf params).manm i

/-- The negative mask compares a byte behind the section. -/
def OpenNegative : Prop :=
  ∃ i : Fin secFilterLen, ¬ Inside s i ∧ (secConfigOf params).manm (i.castAdd 2) ≠ 0

/-- The bytes of the section alone rule the filter out. -/
def Refused : Prop :=
  Clash s params ∨ (HasNegative params ∧ ¬ NegativeHit s params ∧ ¬ OpenNegative s params)

/-- The bytes of the section alone satisfy the filter. -/
def Accepted : Prop :=
  ¬ Clash s params ∧ ¬ OpenPositive s params ∧ (HasNegative params → NegativeHit s params)

/-- The section has a bad checksum and the filter checks it, or the section rules the filter
out, or the checksum is good and the section satisfies the filter. -/
def Settled : Prop :=
  (swdmxCrc32 s.bytes ≠ 0 ∧ params.crc32 ≠ 0) ∨ Refused s params ∨
    (swdmxCrc32 s.bytes = 0 ∧ Accepted s params)

end

/-! ## Matching in a buffer that shows the section -/

section

variable {s : PsiSection} {params : SecParams} {tail : List UInt8}

theorem getD_inside {i : Fin secFilterLen} (hi : Inside s i) :
    (s.bytes ++ tail).getD i 0 = s.bytes.getD i 0 := by
  simp only [List.getD_eq_getElem?_getD, List.getElem?_append_left hi]

theorem agree_inside {mask : Fin (secFilterLen + 2) → UInt8} {i : Fin secFilterLen}
    (hi : Inside s i) :
    Agree (s.bytes ++ tail) (secConfigOf params) mask i ↔
      Agree s.bytes (secConfigOf params) mask i := by
  unfold Agree
  rw [getD_inside hi]

theorem Refused.not_match (h : Refused s params) :
    secFilterMatch (s.bytes ++ tail) (secConfigOf params) = false := by
  rw [Bool.eq_false_iff, ne_eq, secFilterMatch_iff]
  rintro ⟨hpos, hneg⟩
  rcases h with ⟨i, hi, hclash⟩ | ⟨hhas, hhit, hopen⟩
  · exact hclash ((agree_inside hi).mp (hpos i))
  · obtain ⟨i, hi⟩ := hneg hhas
    by_cases hin : Inside s i
    · exact hhit ⟨i, hin, fun ha => hi ((agree_inside hin).mpr ha)⟩
    · apply hi
      have hz : (secConfigOf params).manm (i.castAdd 2) = 0 := by
        by_contra hne
        exact hopen ⟨i, hin, hne⟩
      rw [Agree, hz, UInt8.and_zero, UInt8.and_zero]

theorem Accepted.match (h : Accepted s params) :
    secFilterMatch (s.bytes ++ tail) (secConfigOf params) = true := by
  obtain ⟨hclash, hopen, hneg⟩ := h
  refine (secFilterMatch_iff _ _).mpr ⟨fun i => ?_, fun hhas => ?_⟩
  · by_cases hin : Inside s i
    · rw [agree_inside hin]
      by_contra hne
      exact hclash ⟨i, hin, hne⟩
    · have hz : (secConfigOf params).mam (i.castAdd 2) = 0 := by
        by_contra hne
        exact hopen ⟨i, hin, hne⟩
      rw [Agree, hz, UInt8.and_zero, UInt8.and_zero]
  · obtain ⟨i, hin, hne⟩ := hneg hhas
    exact ⟨i, fun ha => hne ((agree_inside hin).mp ha)⟩

/-- Flipping the bits of a mask is seen through that mask and through no disjoint one. -/
theorem xor_mask_and (v m k : UInt8) : (v ^^^ m) &&& k = (v &&& k) ^^^ (m &&& k) := by
  apply UInt8.toBitVec_inj.mp
  ext i hi
  simp [Bool.and_xor_distrib_right]

theorem xor_mask_ne {m : UInt8} (v : UInt8) (hm : m ≠ 0) : (v ^^^ m) &&& m ≠ v &&& m := by
  rw [xor_mask_and, UInt8.and_self]
  intro h
  refine hm ((UInt8.xor_right_inj (v &&& m)).mp ?_)
  rw [h, UInt8.xor_zero]

end

/-! ## Earlier sections leave any bytes behind a later one -/

/-- A section of sixteen bytes that ends in chosen ones. -/
def filler (t : Nat → UInt8) : PsiSection where
  bytes := [0, 0, 13] ++ (List.range 13).map fun k => t (k + 3)
  length_eq := by
    have h : secLen ([0, 0, 13] ++ (List.range 13).map fun k => t (k + 3)) = secLen [0, 0, 13] :=
      secLen_congr rfl
    rw [h, List.length_append, List.length_map, List.length_range]
    decide
  table_id := by
    rw [List.cons_append, List.getD_cons_zero]
    decide

theorem filler_length (t : Nat → UInt8) : (filler t).bytes.length = 16 := by
  rw [filler, List.length_append, List.length_map, List.length_range]
  rfl

theorem filler_getD (t : Nat → UInt8) {i : Nat} (h3 : 3 ≤ i) (hi : i < 16) :
    (filler t).bytes.getD i 0 = t i := by
  have hrange : (List.range 13)[i - 3]? = some (i - 3) := List.getElem?_range (by omega)
  rw [filler, List.getD_eq_getElem?_getD, List.getElem?_append_right h3, List.getElem?_map]
  simp only [List.length_cons, List.length_nil, hrange, Option.map_some, Option.getD_some,
    Nat.sub_add_cancel h3]

section

variable {s : PsiSection} {params : SecParams}

/-- The buffer when `s` is completed behind the filler. -/
theorem overlay_filler_getD (t : Nat → UInt8) (heap : List UInt8) {i : Fin secFilterLen}
    (hi : ¬ Inside s i) :
    (overlay s.bytes (overlay (filler t).bytes heap)).getD i 0 = t i := by
  have hlen : s.bytes.length ≤ i.val := Nat.le_of_not_lt hi
  have hge := s.length_ge
  have hfl := filler_length t
  have hget : (overlay s.bytes (overlay (filler t).bytes heap))[i.val]? =
      (filler t).bytes[i.val]? := by
    rw [overlay, List.getElem?_append_right hlen, List.getElem?_drop, Nat.add_sub_cancel' hlen,
      overlay, List.getElem?_append_left (by rw [hfl]; exact i.isLt)]
  rw [List.getD_eq_getElem?_getD, hget, ← List.getD_eq_getElem?_getD]
  exact filler_getD t (by omega) i.isLt

/-- Unless the section rules the filter out, some earlier section makes the filter match. -/
theorem exists_match (h : ¬ Refused s params) :
    ∃ t, ∀ heap, secFilterMatch (overlay s.bytes (overlay (filler t).bytes heap))
      (secConfigOf params) = true := by
  have hclash : ¬ Clash s params := fun hc => h (Or.inl hc)
  let entry := fun i : Nat => if hi : i < secFilterLen then
    let j : Fin (secFilterLen + 2) := (⟨i, hi⟩ : Fin secFilterLen).castAdd 2
    (secConfigOf params).value j ^^^ (secConfigOf params).manm j else 0
  have hentry : ∀ i : Fin secFilterLen, entry i =
      (secConfigOf params).value (i.castAdd 2) ^^^ (secConfigOf params).manm (i.castAdd 2) :=
    fun i => dif_pos i.isLt
  refine ⟨entry, fun heap => (secFilterMatch_iff _ _).mpr ⟨fun i => ?_, fun hhas => ?_⟩⟩
  · by_cases hin : Inside s i
    · rw [overlay, agree_inside hin]
      by_contra hne
      exact hclash ⟨i, hin, hne⟩
    · rw [Agree, overlay_filler_getD entry heap hin, hentry, xor_mask_and, UInt8.and_comm
        ((secConfigOf params).manm _), mam_and_manm, UInt8.xor_zero]
  · have hneg : NegativeHit s params ∨ OpenNegative s params := by
      by_contra hno
      exact h (Or.inr ⟨hhas, fun hh => hno (Or.inl hh), fun ho => hno (Or.inr ho)⟩)
    rcases hneg with ⟨i, hin, hne⟩ | ⟨i, hin, hne⟩
    · exact ⟨i, fun ha => hne ((agree_inside hin).mp ha)⟩
    · refine ⟨i, fun ha => ?_⟩
      rw [Agree, overlay_filler_getD entry heap hin, hentry] at ha
      exact xor_mask_ne _ hne ha

/-- Unless the section satisfies the filter, some earlier section makes the filter fail. -/
theorem exists_no_match (h : ¬ Refused s params) (h' : ¬ Accepted s params) :
    ∃ t, ∀ heap, secFilterMatch (overlay s.bytes (overlay (filler t).bytes heap))
      (secConfigOf params) = false := by
  have hclash : ¬ Clash s params := fun hc => h (Or.inl hc)
  by_cases hopen : OpenPositive s params
  · obtain ⟨i, hin, hne⟩ := hopen
    let entry := fun _ : Nat =>
      (secConfigOf params).value (i.castAdd 2) ^^^ (secConfigOf params).mam (i.castAdd 2)
    refine ⟨entry, fun heap => ?_⟩
    rw [Bool.eq_false_iff, ne_eq, secFilterMatch_iff]
    rintro ⟨hpos, -⟩
    have ha := hpos i
    rw [Agree, overlay_filler_getD entry heap hin] at ha
    exact xor_mask_ne _ hne ha
  · -- the negative mask is not hit inside the section, and the filler repeats the value
    have hneg : HasNegative params ∧ ¬ NegativeHit s params := by
      by_contra hno
      exact h' ⟨hclash, hopen, fun hhas => by
        by_contra hhit
        exact hno ⟨hhas, hhit⟩⟩
    let entry := fun i : Nat => if hi : i < secFilterLen then
      (secConfigOf params).value ((⟨i, hi⟩ : Fin secFilterLen).castAdd 2) else 0
    have hentry : ∀ i : Fin secFilterLen, entry i = (secConfigOf params).value (i.castAdd 2) :=
      fun i => dif_pos i.isLt
    refine ⟨entry, fun heap => ?_⟩
    rw [Bool.eq_false_iff, ne_eq, secFilterMatch_iff]
    rintro ⟨-, hhit⟩
    obtain ⟨i, hne⟩ := hhit hneg.1
    apply hne
    by_cases hin : Inside s i
    · rw [overlay, agree_inside hin]
      by_contra hd
      exact hneg.2 ⟨i, hin, hd⟩
    · rw [Agree, overlay_filler_getD entry heap hin, hentry]

end

/-! ## Observations, made and analysed -/

theorem pidFilterRun_made {heap : Block UInt8 secDataSize} {st st' : SecState} (hst : st.Ok)
    {calls : List PidCall} {outs : List Output}
    (h : pidFilterRun heap st calls = some (outs, st')) :
    outs.length = calls.length ∧
      ∀ c out, (c, out) ∈ calls.zip outs → ∀ d ∈ out.sections, Made c.secFilters d := by
  induction calls generalizing st outs with
  | nil =>
    obtain ⟨rfl, rfl⟩ := Prod.mk.inj (Option.some.inj h)
    exact ⟨rfl, fun c out hm => absurd hm (by simp)⟩
  | cons c calls ih =>
    obtain ⟨out, st₁, h1, h2, -, h3⟩ :=
      pidFilterData_total heap c.tsFilters c.secFilters hst c.pkt
    simp only [pidFilterRun, h1, Option.bind_some, Option.bind_eq_bind,
      Option.bind_eq_some_iff] at h
    obtain ⟨q, hq, hr⟩ := h
    obtain ⟨rfl, rfl⟩ := Prod.mk.inj (Option.some.inj hr)
    obtain ⟨hlen, hmem⟩ := ih h2 hq
    refine ⟨by rw [List.length_cons, List.length_cons, hlen], fun c' out' hm => ?_⟩
    rcases List.mem_cons.mp hm with he | hm
    · obtain ⟨rfl, rfl⟩ := Prod.mk.inj he
      exact h3
    · exact hmem c' out' hm

theorem secStateInit_ok : secStateInit.Ok := rfl

section

variable {s : PsiSection} {params : SecParams}

/-- Behind the observation is the filter loop on a buffer that shows the section. -/
theorem Observation.deliver (o : Observation params s.bytes) :
    ∃ tail, (o.Invoked ↔ o.filter.ref ∈
      (secDeliver (s.bytes ++ tail) s.bytes.length false o.call.secFilters).map
        Delivery.filter) := by
  obtain ⟨-, hmade⟩ := pidFilterRun_made secStateInit_ok o.run_eq
  obtain ⟨sec, n, hn, hc⟩ := hmade _ _ o.call_mem _ o.completion_mem
  have hdata : sec.cells.take n = s.bytes := by
    rw [← o.data_eq, hc]
    rfl
  have hlen : s.bytes.length = n := by
    rw [← hdata, List.length_take, sec.size_eq]
    omega
  have hcells : s.bytes ++ sec.cells.drop n = sec.cells := by
    rw [← hdata, List.take_append_drop]
  refine ⟨sec.cells.drop n, ?_⟩
  rw [Observation.Invoked, hc, hlen, hcells]
  rfl

theorem Observation.refs_nodup (o : Observation params s.bytes) :
    (o.call.secFilters.map Filter.ref).Nodup :=
  (o.on_pid _ (List.of_mem_zip o.call_mem).1).refs_nodup

/-- The packets of a filler and of `s`, given to a PID filter with the section filters `fs`,
complete `s` in a buffer that shows the filler behind it. -/
theorem exists_observation (s : PsiSection) (params : SecParams) (fs : List SecFilter)
    (f : SecFilter) (hf : f ∈ fs) (hconfig : f.config = secConfigOf params)
    (hnodup : (fs.map Filter.ref).Nodup)
    (hconf : ∀ g ∈ fs, ∃ q : SecParams, g.config = secConfigOf q ∧ q.pid = params.pid)
    (t : Nat → UInt8) (heap : Block UInt8 secDataSize) :
    ∃ o : Observation params s.bytes, (o.Invoked ↔ f.ref ∈
      (secDeliver (overlay s.bytes (overlay (filler t).bytes heap.cells)) s.bytes.length false
        fs).map Delivery.filter) := by
  obtain ⟨pkts, hp, hpid⟩ := packetised_exists params.pid [filler t, s]
  let calls : List PidCall := pkts.map fun pkt => ⟨[], fs, pkt⟩
  have hcalls : calls.map PidCall.pkt = pkts := by
    rw [List.map_map]
    exact List.map_id pkts
  have hfs : ∀ c ∈ calls, c.secFilters = fs := by
    intro c hc
    obtain ⟨pkt, -, rfl⟩ := List.mem_map.mp hc
    rfl
  obtain ⟨outs, st, hrun, hsec, -⟩ := pidFilterRun_packetised (List.ne_nil_of_mem hf) hp hcalls
    hfs (secStateInit_assembling heap)
  let done : Completion := ⟨s.bytes, secDeliver (overlay s.bytes (overlay (filler t).bytes
    heap.cells)) s.bytes.length false fs⟩
  have hdone : done ∈ outs.flatMap Output.sections := by
    rw [hsec]
    exact List.mem_cons_of_mem _ List.mem_cons_self
  obtain ⟨out, hout, hmem⟩ := List.mem_flatMap.mp hdone
  have hlen := (pidFilterRun_made secStateInit_ok hrun).1
  obtain ⟨call, hcall⟩ : ∃ call, (call, out) ∈ calls.zip outs := by
    obtain ⟨i, hi, rfl⟩ := List.getElem_of_mem hout
    exact ⟨calls[i], List.mem_iff_getElem.mpr ⟨i, by rw [List.length_zip]; omega, by simp⟩⟩
  have hin := (List.of_mem_zip hcall).1
  have hon : ∀ c ∈ calls, c.On params.pid := by
    intro c hc
    obtain ⟨pkt, hpkt, rfl⟩ := List.mem_map.mp hc
    exact ⟨hpid pkt hpkt, hnodup, hconf⟩
  exact ⟨⟨heap, calls, outs, st, hon, hrun, call, out, hcall, done, hmem, rfl, f,
    (hfs call hin).symm ▸ hf, hconfig⟩, Iff.rfl⟩

/-- What an invoked filter says about the section. -/
theorem Observation.Invoked.facts {o : Observation params s.bytes} (h : o.Invoked) :
    (∃ tail, secFilterMatch (s.bytes ++ tail) (secConfigOf params) = true) ∧
      (swdmxCrc32 s.bytes ≠ 0 → params.crc32 = 0) := by
  obtain ⟨tail, hiff⟩ := o.deliver
  obtain ⟨d, hd, hdf⟩ := List.mem_map.mp (hiff.mp h)
  obtain ⟨f, hf, hr, hm, hcrc⟩ := mem_secDeliver hd
  obtain rfl := List.inj_on_of_nodup_map o.refs_nodup hf o.filter_mem (hr.trans hdf)
  rw [o.filter_config] at hm hcrc
  rw [List.take_left' rfl] at hcrc
  exact ⟨⟨tail, hm⟩, hcrc⟩

theorem Observation.invoked_of_accepted (o : Observation params s.bytes)
    (hcrc : swdmxCrc32 s.bytes = 0) (h : Accepted s params) : o.Invoked := by
  obtain ⟨tail, hiff⟩ := o.deliver
  refine hiff.mpr ((mem_secDeliver_of_crc ?_ o.refs_nodup o.filter_mem).mpr ?_)
  · rw [List.take_left' rfl, hcrc]
  · rw [o.filter_config]
    exact h.match

/-- A linked filter with the given parameters. -/
def linkedFilter (ref : Ref) (params : SecParams) : SecFilter :=
  ⟨ref, .run, some 0, secConfigOf params, []⟩

/-- With the filter alone, it is invoked when it matches behind the filler. -/
theorem exists_observation_alone (s : PsiSection) (params : SecParams)
    (hcrc : swdmxCrc32 s.bytes ≠ 0 → params.crc32 = 0) (t : Nat → UInt8)
    (heap : Block UInt8 secDataSize) :
    ∃ o : Observation params s.bytes, (o.Invoked ↔ secFilterMatch
      (overlay s.bytes (overlay (filler t).bytes heap.cells)) (secConfigOf params) = true) := by
  obtain ⟨o, ho⟩ := exists_observation s params [linkedFilter 1 params] (linkedFilter 1 params)
    List.mem_cons_self rfl (List.nodup_singleton _)
    (fun g hg => ⟨params, by rw [List.mem_singleton.mp hg]; exact ⟨rfl, rfl⟩⟩) t heap
  refine ⟨o, ho.trans ?_⟩
  have htake : (overlay s.bytes (overlay (filler t).bytes heap.cells)).take s.bytes.length =
      s.bytes := List.take_left' rfl
  rw [secDeliver_single (by rw [htake]; exact hcrc)]
  show _ ∈ List.map _ (if secFilterMatch _ (secConfigOf params) = true then _ else _) ↔ _
  split
  · next h => exact ⟨fun _ => h, fun _ => List.mem_cons_self⟩
  · next h => exact ⟨fun hm => absurd hm List.not_mem_nil, fun hm => absurd hm h⟩

/-- A filter in front that checks a bad checksum keeps the section from the filter. -/
theorem exists_observation_blocked (s : PsiSection) (params : SecParams)
    (hcrc : swdmxCrc32 s.bytes ≠ 0) (heap : Block UInt8 secDataSize) :
    ∃ o : Observation params s.bytes, ¬ o.Invoked := by
  let checked : SecParams := ⟨params.pid, 1, params.value, params.mask, params.mode⟩
  have hconf : ∀ g ∈ [linkedFilter 2 checked, linkedFilter 1 params],
      ∃ q : SecParams, g.config = secConfigOf q ∧ q.pid = params.pid := by
    intro g hg
    rcases List.mem_cons.mp hg with rfl | hg
    · exact ⟨checked, rfl, rfl⟩
    · rw [List.mem_singleton.mp hg]
      exact ⟨params, rfl, rfl⟩
  obtain ⟨o, ho⟩ := exists_observation s params
    [linkedFilter 2 checked, linkedFilter 1 params] (linkedFilter 1 params)
    (List.mem_cons_of_mem _ List.mem_cons_self) rfl (by simp [linkedFilter]) hconf (fun _ => 0) heap
  refine ⟨o, fun h => ?_⟩
  have hmem := ho.mp h
  have htake : (overlay s.bytes (overlay (filler fun _ => 0).bytes heap.cells)).take
      s.bytes.length = s.bytes := List.take_left' rfl
  rw [secDeliver_blocked (by rw [htake]; exact hcrc) (by exact (by decide : (1 : UInt8) ≠ 0))]
    at hmem
  exact absurd hmem List.not_mem_nil

/-- Two runs that complete the same section treat filters with the same parameters alike
exactly when the section and the parameters settle the matter. -/
theorem delivery_independent_iff (s : PsiSection) (params : SecParams) :
    (∀ o o' : Observation params s.bytes, o.Invoked ↔ o'.Invoked) ↔ Settled s params := by
  constructor
  · intro hall
    by_contra hns
    have hr : ¬ Refused s params := fun h => hns (Or.inr (Or.inl h))
    have hcheck : swdmxCrc32 s.bytes ≠ 0 → params.crc32 = 0 := by
      intro hbad
      by_contra h0
      exact hns (Or.inl ⟨hbad, h0⟩)
    obtain ⟨t, ht⟩ := exists_match hr
    let heap : Block UInt8 secDataSize := Block.fill _ 0
    obtain ⟨o, ho⟩ := exists_observation_alone s params hcheck t heap
    have hinv : o.Invoked := ho.mpr (ht _)
    by_cases hcrc : swdmxCrc32 s.bytes = 0
    · obtain ⟨t', ht'⟩ := exists_no_match hr fun h => hns (Or.inr (Or.inr ⟨hcrc, h⟩))
      obtain ⟨o', ho'⟩ := exists_observation_alone s params hcheck t' heap
      have hm := ho'.mp ((hall o o').mp hinv)
      rw [ht'] at hm
      exact Bool.false_ne_true hm
    · obtain ⟨o', ho'⟩ := exists_observation_blocked s params hcrc heap
      exact ho' ((hall o o').mp hinv)
  · rintro (⟨hbad, hcheck⟩ | hr | ⟨hcrc, ha⟩) o o'
    · exact ⟨fun h => absurd (h.facts.2 hbad) hcheck, fun h => absurd (h.facts.2 hbad) hcheck⟩
    · have hno : ∀ o : Observation params s.bytes, ¬ o.Invoked := by
        intro o h
        obtain ⟨tail, hm⟩ := h.facts.1
        rw [hr.not_match] at hm
        exact Bool.false_ne_true hm
      exact ⟨fun h => absurd h (hno o), fun h => absurd h (hno o')⟩
    · exact ⟨fun _ => o'.invoked_of_accepted hcrc ha, fun _ => o.invoked_of_accepted hcrc ha⟩

end

/-! A section with a bad checksum and a filter that accepts everything without checking. -/

def starvedSection : PsiSection := ⟨[0x42, 0, 1, 0xaa], by decide, by decide⟩

def starvedParams : SecParams := ⟨0x100, 0, fun _ => 0, fun _ => 0, fun _ => 0⟩

/-- Alone the filter gets the section; behind a filter that checks it does not. -/
theorem crc_failure_starves :
    ¬ ∀ o o' : Observation starvedParams starvedSection.bytes, o.Invoked ↔ o'.Invoked := by
  intro hall
  have hcrc : swdmxCrc32 starvedSection.bytes ≠ 0 := by decide
  obtain ⟨o, ho⟩ := exists_observation_alone starvedSection starvedParams (fun _ => rfl)
    (fun _ => 0) (Block.fill _ 0)
  obtain ⟨o', ho'⟩ := exists_observation_blocked starvedSection starvedParams hcrc
    (Block.fill _ 0)
  exact ho' ((hall o o').mp (ho.mpr (secFilterMatch_of_mask_zero _ fun _ => rfl)))

end MediaModules.Demux
