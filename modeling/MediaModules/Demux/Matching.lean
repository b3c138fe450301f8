import Mathlib.Tactic.Common
import Mathlib.Tactic.FinCases
import Mathlib.Data.List.TakeWhile
import MediaModules.Demux.Section

/-!
# Which filters a section is delivered to

`sec_filter_match` in closed form, and the filter loop of `sec_data` for a section with a
good and with a bad checksum.
-/
namespace MediaModules.Demux

open MediaModules.Lib.Buffer

/-! ## Matching -/

/-- Byte `i` of the section and the filter value agree on the bits of `mask`. -/
def Agree (data : List UInt8) (f : SecConfig) (mask : Fin (secFilterLen + 2) → UInt8)
    (i : Fin secFilterLen) : Prop :=
  data.getD i 0 &&& mask (i.castAdd 2) = f.value (i.castAdd 2) &&& mask (i.castAdd 2)

/-- An accumulator that collects bits is zero when none was ever set. -/
theorem foldl_bits_eq_zero {ι σ : Type*} (step : σ → ι → σ) (bits : σ → UInt8) {g : ι → UInt8}
    (hstep : ∀ s i, bits (step s i) = bits s ||| g i) (l : List ι) (s : σ) :
    bits (l.foldl step s) = 0 ↔ bits s = 0 ∧ ∀ i ∈ l, g i = 0 := by
  induction l generalizing s with
  | nil => simp
  | cons i l ih =>
    rw [List.foldl_cons, ih, hstep, UInt8.or_eq_zero_iff, List.forall_mem_cons, and_assoc]

/-- The loop compares the first sixteen bytes of the buffer: all bits of the positive mask
agree and, when there is a negative mask, one of its bits does not. -/
theorem secFilterMatch_iff (data : List UInt8) (f : SecConfig) :
    secFilterMatch data f = true ↔ (∀ i, Agree data f f.mam i) ∧
      ((∃ i : Fin secFilterLen, f.manm (i.castAdd 2) ≠ 0) → ∃ i, ¬ Agree data f f.manm i) := by
  let acc := (List.finRange secFilterLen).foldl (matchStep data f) ⟨0, 0, 0⟩
  have hm : acc.m = 0 ↔ ∀ i, Agree data f f.mam i := by
    have h := foldl_bits_eq_zero (matchStep data f) MatchAcc.m (fun _ _ => rfl)
      (List.finRange secFilterLen) ⟨0, 0, 0⟩
    simp only [UInt8.xor_eq_zero_iff, List.mem_finRange, forall_const, true_and] at h
    exact h
  have hn : acc.n = 0 ↔ ∀ i, Agree data f f.manm i := by
    have h := foldl_bits_eq_zero (matchStep data f) MatchAcc.n (fun _ _ => rfl)
      (List.finRange secFilterLen) ⟨0, 0, 0⟩
    simp only [UInt8.xor_eq_zero_iff, List.mem_finRange, forall_const, true_and] at h
    exact h
  have hh : acc.hasN = 0 ↔ ∀ i : Fin secFilterLen, f.manm (i.castAdd 2) = 0 := by
    have h := foldl_bits_eq_zero (matchStep data f) MatchAcc.hasN (fun _ _ => rfl)
      (List.finRange secFilterLen) ⟨0, 0, 0⟩
    simpa only [List.mem_finRange, forall_const, true_and] using h
  have hdef : secFilterMatch data f =
      if acc.m ≠ 0 then false else if acc.hasN ≠ 0 ∧ acc.n = 0 then false else true := rfl
  rw [hdef, ← hm, ← not_forall, ← not_forall, ← hh, ← hn]
  split
  · next h => exact ⟨fun hf => absurd hf Bool.false_ne_true, fun hp => absurd hp.1 h⟩
  · next h =>
    have h0 : acc.m = 0 := not_not.mp h
    split
    · next h' => exact ⟨fun hf => absurd hf Bool.false_ne_true, fun hp => absurd h'.2 (hp.2 h'.1)⟩
    · next h' => exact ⟨fun _ => ⟨h0, fun h1 h2 => h' ⟨h1, h2⟩⟩, fun _ => rfl⟩

theorem secFieldArray_eq (v : Fin secFilterLen → UInt8) (j : Fin (secFilterLen + 2)) :
    secFieldArray v j = (secFieldSource j).elim 0 v := by
  fin_cases j <;> rfl

/-- A bit is compared by one of the two masks at most. -/
theorem mam_and_manm (params : SecParams) (j : Fin (secFilterLen + 2)) :
    (secConfigOf params).mam j &&& (secConfigOf params).manm j = 0 := by
  simp only [secConfigOf, secFieldArray_eq]
  cases secFieldSource j with
  | none => exact UInt8.zero_and
  | some i =>
    simp only [Option.elim_some, UInt8.not_not]
    rw [UInt8.and_assoc, UInt8.and_comm (params.mask i) (params.mode i),
      ← UInt8.and_assoc (~~~params.mode i), UInt8.not_and_self, UInt8.zero_and, UInt8.and_zero]

theorem secFilterMatch_of_mask_zero (data : List UInt8) {params : SecParams}
    (h : ∀ i, params.mask i = 0) : secFilterMatch data (secConfigOf params) = true := by
  have hzero : ∀ (v : Fin secFilterLen → UInt8) j, (∀ i, v i = 0) → secFieldArray v j = 0 := by
    intro v j hv
    rw [secFieldArray_eq]
    cases secFieldSource j with
    | none => rfl
    | some i => exact hv i
  have hmam : ∀ j, (secConfigOf params).mam j = 0 :=
    fun j => hzero _ j fun i => by rw [h i, UInt8.zero_and]
  have hmanm : ∀ j, (secConfigOf params).manm j = 0 :=
    fun j => hzero _ j fun i => by rw [h i, UInt8.zero_and]
  refine (secFilterMatch_iff data _).mpr ⟨fun i => ?_, fun ⟨i, hi⟩ => absurd (hmanm _) hi⟩
  rw [Agree, hmam, UInt8.and_zero, UInt8.and_zero]

/-! ## The filter loop -/

section

variable {sec : List UInt8} {recv : Nat}

/-- With a good checksum the loop visits every filter and runs those that match. -/
theorem secDeliver_of_crc (h : swdmxCrc32 (sec.take recv) = 0) (crc : Bool)
    (fs : List SecFilter) :
    secDeliver sec recv crc fs =
      (fs.filter fun f => secFilterMatch sec f.config).map fun f => ⟨f.ref, f.cbList⟩ := by
  induction fs generalizing crc with
  | nil => rfl
  | cons f fs ih =>
    have hc : ∀ c : Bool, ¬ (c = true ∧ swdmxCrc32 (sec.take recv) ≠ 0) := fun c hc => hc.2 h
    rw [secDeliver]
    simp only [if_neg (hc _), ih, List.filter_cons]
    cases secFilterMatch sec f.config <;> rfl

/-- With a bad checksum the loop is left at the first filter that checks it. -/
theorem secDeliver_of_bad_crc (h : swdmxCrc32 (sec.take recv) ≠ 0) (fs : List SecFilter) :
    secDeliver sec recv false fs =
      ((fs.takeWhile fun f => SecParams.crc32 (SecConfig.params f.config) = 0).filter
        fun f => secFilterMatch sec f.config).map fun f => ⟨f.ref, f.cbList⟩ := by
  induction fs with
  | nil => rfl
  | cons f fs ih =>
    rw [secDeliver, List.takeWhile_cons]
    by_cases hf : SecParams.crc32 (SecConfig.params f.config) = 0
    · have hd : decide (SecParams.crc32 (SecConfig.params f.config) = 0) = true :=
        decide_eq_true hf
      have hd' : decide (SecParams.crc32 (SecConfig.params f.config) ≠ 0) = false :=
        decide_eq_false (not_not.mpr hf)
      rw [hd, hd', if_pos rfl, List.filter_cons]
      cases hmt : secFilterMatch sec f.config with
      | false => simpa using ih
      | true => simpa using ih
    · have hd : decide (SecParams.crc32 (SecConfig.params f.config) = 0) = false :=
        decide_eq_false hf
      have hd' : decide (SecParams.crc32 (SecConfig.params f.config) ≠ 0) = true :=
        decide_eq_true hf
      rw [hd, hd']
      exact if_pos ⟨rfl, h⟩

/-- A filter that does not check a bad checksum is run, alone, when it matches. -/
theorem secDeliver_single {f : SecFilter}
    (h : swdmxCrc32 (sec.take recv) ≠ 0 → SecParams.crc32 (SecConfig.params f.config) = 0) :
    secDeliver sec recv false [f] =
      if secFilterMatch sec f.config then [⟨f.ref, f.cbList⟩] else [] := by
  have hcheck : ¬ ((decide (SecParams.crc32 (SecConfig.params f.config) ≠ 0) && !false) = true ∧
      swdmxCrc32 (sec.take recv) ≠ 0) := by
    rintro ⟨h1, h2⟩
    rw [Bool.not_false, Bool.and_true] at h1
    exact of_decide_eq_true h1 (h h2)
  simp only [secDeliver, if_neg hcheck]
  cases secFilterMatch sec f.config <;> rfl

/-- A filter that checks a bad checksum ends the loop. -/
theorem secDeliver_blocked (h : swdmxCrc32 (sec.take recv) ≠ 0) {f : SecFilter}
    (hf : SecParams.crc32 (SecConfig.params f.config) ≠ 0) (fs : List SecFilter) :
    secDeliver sec recv false (f :: fs) = [] := by
  rw [secDeliver_of_bad_crc h, List.takeWhile_cons, decide_eq_false hf]
  rfl

/-- A filter that is run matches, and it checks the checksum only if that is good. -/
theorem mem_secDeliver {fs : List SecFilter} {d : Delivery} (hd : d ∈ secDeliver sec recv false fs) :
    ∃ f ∈ fs, f.ref = d.filter ∧ secFilterMatch sec f.config = true ∧
      (swdmxCrc32 (sec.take recv) ≠ 0 → SecParams.crc32 (SecConfig.params f.config) = 0) := by
  by_cases hcrc : swdmxCrc32 (sec.take recv) = 0
  · rw [secDeliver_of_crc hcrc] at hd
    obtain ⟨f, hf, rfl⟩ := List.mem_map.mp hd
    obtain ⟨hmem, hm⟩ := List.mem_filter.mp hf
    exact ⟨f, hmem, rfl, hm, fun h => absurd hcrc h⟩
  · rw [secDeliver_of_bad_crc hcrc] at hd
    obtain ⟨f, hf, rfl⟩ := List.mem_map.mp hd
    obtain ⟨hmem, hm⟩ := List.mem_filter.mp hf
    have hzero := List.mem_takeWhile_imp hmem
    exact ⟨f, (List.takeWhile_sublist _).subset hmem, rfl, hm, fun _ => of_decide_eq_true hzero⟩

/-- With a good checksum a filter is run exactly when it matches. -/
theorem mem_secDeliver_of_crc (h : swdmxCrc32 (sec.take recv) = 0) {fs : List SecFilter}
    (hrefs : (fs.map Filter.ref).Nodup) {f : SecFilter} (hf : f ∈ fs) :
    f.ref ∈ (secDeliver sec recv false fs).map Delivery.filter ↔
      secFilterMatch sec f.config = true := by
  constructor
  · intro hmem
    obtain ⟨d, hd, hdf⟩ := List.mem_map.mp hmem
    obtain ⟨f', hf', hr, hm, -⟩ := mem_secDeliver hd
    obtain rfl := List.inj_on_of_nodup_map hrefs hf' hf (hr.trans hdf)
    exact hm
  · intro hm
    rw [secDeliver_of_crc h, List.map_map]
    exact List.mem_map.mpr ⟨f, List.mem_filter.mpr ⟨hf, hm⟩, rfl⟩

end

end MediaModules.Demux
