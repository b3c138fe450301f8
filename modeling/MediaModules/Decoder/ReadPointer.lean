import Mathlib.Data.Nat.Bitwise
import Mathlib.Tactic.Common

/-!
# The read pointer of two decoders

`vdec_sync_input_read` and the byte count of `vdec_save_input_context`. The decoders of a dual pair
read one stream buffer. Its read pointer follows the one that has consumed less, so that what this
one still needs is not overwritten.
-/
namespace MediaModules.ReadPointer

inductive VdecType
  | single
  | streamParser
  | frameBlock
  | frameCircular
deriving DecidableEq, Repr

inductive InputTarget
  | vld
  | hevc
deriving DecidableEq, Repr

/-- What the functions read of `struct vdec_input_s`. `streamingRp` has 64 bits, `streamCookie` 32. -/
structure VdecInput where
  target : InputTarget
  streamingRp : Nat
  swapRp : Nat
  streamCookie : Nat
deriving DecidableEq, Repr

/-- What the functions read of `struct vdec_s`. `dual` is the value of the macro `vdec_dual`, which
also looks at a debug flag. -/
structure Vdec where
  type : VdecType
  dual : Bool
  input : VdecInput
  master : Option VdecInput := none
  slave : Option VdecInput := none
deriving DecidableEq, Repr

/-- The registers, of 32 bits each. -/
structure Registers where
  vldMemVififoWrapCount : Nat
  vldMemVififoRp : Nat
  hevcShiftByteCount : Nat
  hevcStreamRdPtr : Nat
deriving DecidableEq, Repr

/-- `vdec_stream_based`. -/
def Vdec.streamBased (v : Vdec) : Bool := v.type = .streamParser || v.type = .single

/-- `vdec_get_associate`. -/
def vdecGetAssociate (v : Vdec) : Option VdecInput :=
  match v.master with
  | some m => some m
  | none => v.slave

/-- The read pointer register of a target. -/
def Registers.position (r : Registers) : InputTarget → Nat
  | .vld => r.vldMemVififoRp
  | .hevc => r.hevcStreamRdPtr

/-- `vdec_sync_input_read`: the value of `set_rp`, if it is called. Without an associate a dual
decoder reads through a null pointer. -/
def vdecSyncInputRead (v : Vdec) (r : Registers) : Option (Option Nat) :=
  if v.streamBased = false then some none
  else if v.dual then
    (vdecGetAssociate v).map fun associate =>
      match v.input.target with
      | .vld =>
        let me := r.vldMemVififoWrapCount
        if me > associate.streamCookie then none
        else if me = associate.streamCookie ∧ r.vldMemVififoRp > associate.swapRp % 2 ^ 32 then
          some associate.swapRp
        else some r.vldMemVififoRp
      | .hevc =>
        let me := r.hevcShiftByteCount
        -- `me` is a `u32`, which cannot hold the carry
        let me :=
          if me.testBit 31 = false ∧ v.input.streamingRp.testBit 31 then (me + 2 ^ 32) % 2 ^ 32
          else me
        let other := associate.streamingRp % 2 ^ 32
        if me > other then some associate.swapRp else some r.hevcStreamRdPtr
  else some (some (r.position v.input.target))

/-- What `vdec_save_input_context` makes of `streaming_rp`. The cookie is an `int`, it is or-ed in with
its sign. -/
def saveStreamingRp (streamingRp cookie : Nat) : Nat :=
  let rp :=
    if cookie.testBit 31 = false ∧ streamingRp.testBit 31 then (streamingRp + 2 ^ 32) % 2 ^ 64
    else streamingRp
  let signed := if cookie.testBit 31 then 2 ^ 64 - 2 ^ 32 + cookie else cookie
  2 ^ 32 * (rp / 2 ^ 32) ||| signed

/-! ## The saved count -/

theorem testBit_31 (x : Nat) : x.testBit 31 = decide (x / 2 ^ 31 % 2 = 1) :=
  Nat.testBit_eq_decide_div_mod_eq

/-- A count that went on by less than half of a word is restored while the counter is in the lower
half. -/
theorem saveStreamingRp_low {rp t : Nat} (hlow : rp ≤ t) (hhigh : t < rp + 2 ^ 31)
    (ht : t < 2 ^ 64) (hhalf : t % 2 ^ 32 < 2 ^ 31) : saveStreamingRp rp (t % 2 ^ 32) = t := by
  have hbit : (t % 2 ^ 32).testBit 31 = false := by
    rw [testBit_31, decide_eq_false_iff_not]
    omega
  have hor (a : Nat) : 2 ^ 32 * a ||| t % 2 ^ 32 = 2 ^ 32 * a + t % 2 ^ 32 :=
    (Nat.two_pow_add_eq_or_of_lt (Nat.mod_lt _ (by decide)) a).symm
  simp only [saveStreamingRp, hbit, true_and, Bool.false_eq_true, if_false, hor]
  by_cases hrp : rp.testBit 31
  · rw [if_pos hrp]
    rw [testBit_31, decide_eq_true_eq] at hrp
    omega
  · rw [if_neg hrp]
    rw [testBit_31, decide_eq_true_eq] at hrp
    omega

/-- In the upper half the sign of the cookie fills the upper word. -/
theorem saveStreamingRp_high {rp t : Nat} (hrp : rp < 2 ^ 64) (hhalf : 2 ^ 31 ≤ t % 2 ^ 32) :
    saveStreamingRp rp (t % 2 ^ 32) = 2 ^ 64 - 2 ^ 32 + t % 2 ^ 32 := by
  have hbit : (t % 2 ^ 32).testBit 31 = true := by
    rw [testBit_31, decide_eq_true_eq]
    omega
  have hlt : t % 2 ^ 32 < 2 ^ 32 := Nat.mod_lt _ (by decide)
  have hall : rp / 2 ^ 32 ||| (2 ^ 32 - 1) = 2 ^ 32 - 1 := by
    refine Nat.eq_of_testBit_eq fun i => ?_
    rw [Nat.testBit_or, Nat.testBit_two_pow_sub_one]
    by_cases hi : i < 32
    · simp [hi]
    · have hz : (rp / 2 ^ 32).testBit i = false :=
        Nat.testBit_lt_two_pow (Nat.lt_of_lt_of_le (by omega)
          (Nat.pow_le_pow_right (by decide) (Nat.not_lt.mp hi)))
      rw [hz]
      simp [hi]
  have hsplit : 2 ^ 64 - 2 ^ 32 + t % 2 ^ 32 = 2 ^ 32 * (2 ^ 32 - 1) ||| t % 2 ^ 32 := by
    rw [← Nat.two_pow_add_eq_or_of_lt hlt]
    omega
  have hmul (a b : Nat) : 2 ^ 32 * a ||| 2 ^ 32 * b = 2 ^ 32 * (a ||| b) := by
    simp only [Nat.mul_comm (2 ^ 32), ← Nat.shiftLeft_eq, Nat.shiftLeft_or_distrib]
  simp only [saveStreamingRp, hbit, Bool.true_eq_false, false_and, if_false, if_true]
  rw [hsplit, ← Nat.or_assoc, hmul, hall]

/-! ## The slower decoder -/

/-- The pointer was set to the position of a decoder that has consumed no more than the other one. -/
def SetToSlower (consumed position consumedOther positionOther : Nat) (set : Option Nat) : Prop :=
  (consumed ≤ consumedOther ∧ set = some position) ∨
    (consumedOther ≤ consumed ∧ set = some positionOther)

/-- The counter of the running decoder is the low word of its count `t`, which is less than half a word
past the one saved last. -/
structure CountedBy (v : Vdec) (r : Registers) (t : Nat) : Prop where
  counter : r.hevcShiftByteCount = t % 2 ^ 32
  saved_le : v.input.streamingRp ≤ t
  lt_saved : t < v.input.streamingRp + 2 ^ 31

/-- The low words of two counts are in the order of the counts. -/
def LowWordsOrdered (t other : Nat) : Prop :=
  (t < other → t % 2 ^ 32 ≤ other % 2 ^ 32) ∧ (other < t → other % 2 ^ 32 < t % 2 ^ 32)

/-- Counts with the same number of wraps are in the order of their low words. -/
theorem LowWordsOrdered.of_wraps {t other : Nat} (h : t / 2 ^ 32 = other / 2 ^ 32) :
    LowWordsOrdered t other := by
  constructor <;> intro hlt <;> omega

/-- The carry is lost, the counter is compared as it is. -/
theorem vdecSyncInputRead_hevc {v : Vdec} {r : Registers} {o : VdecInput} {t : Nat}
    (hs : v.streamBased = true) (hd : v.dual = true) (ht : v.input.target = .hevc)
    (ho : vdecGetAssociate v = some o) (hc : r.hevcShiftByteCount = t % 2 ^ 32) :
    vdecSyncInputRead v r = some (if t % 2 ^ 32 > o.streamingRp % 2 ^ 32 then some o.swapRp
      else some r.hevcStreamRdPtr) := by
  have hcarry : (t % 2 ^ 32 + 2 ^ 32) % 2 ^ 32 = t % 2 ^ 32 := by omega
  simp only [vdecSyncInputRead, hs, Bool.true_eq_false, if_false, hd, if_true, ho, Option.map_some, ht,
    hc, hcarry, ite_self]

/-- On the HEVC input the pointer is set to the slower decoder exactly when both stand at one position or
the low words of their counts are in the order of the counts. -/
theorem vdecSyncInputRead_slower_iff {v : Vdec} {r : Registers} {o : VdecInput} {t : Nat}
    (hs : v.streamBased = true) (hd : v.dual = true) (ht : v.input.target = .hevc)
    (ho : vdecGetAssociate v = some o) (hc : CountedBy v r t) :
    (∃ set, vdecSyncInputRead v r = some set ∧
      SetToSlower t r.hevcStreamRdPtr o.streamingRp o.swapRp set) ↔
        r.hevcStreamRdPtr = o.swapRp ∨ LowWordsOrdered t o.streamingRp := by
  rw [vdecSyncInputRead_hevc hs hd ht ho hc.counter]
  simp only [Option.some.injEq, exists_eq_left', SetToSlower, LowWordsOrdered]
  split
  · next hgt =>
    rw [Option.some.injEq, Option.some.injEq]
    constructor
    · rintro (⟨-, hpos⟩ | ⟨hle, -⟩)
      · exact .inl hpos.symm
      · exact .inr ⟨fun hlt => by omega, fun _ => hgt⟩
    · rintro (hpos | ⟨hup, -⟩)
      · rcases Nat.le_total t o.streamingRp with hle | hle
        · exact .inl ⟨hle, hpos.symm⟩
        · exact .inr ⟨hle, rfl⟩
      · exact .inr ⟨Nat.not_lt.mp fun hlt => by have := hup hlt; omega, rfl⟩
  · next hle =>
    rw [Option.some.injEq, Option.some.injEq]
    constructor
    · rintro (⟨hle', -⟩ | ⟨-, hpos⟩)
      · exact .inr ⟨fun _ => Nat.not_lt.mp hle, fun hlt => by omega⟩
      · exact .inl hpos
    · rintro (hpos | ⟨-, hdown⟩)
      · rcases Nat.le_total t o.streamingRp with hle' | hle'
        · exact .inl ⟨hle', rfl⟩
        · exact .inr ⟨hle', hpos⟩
      · exact .inl ⟨Nat.not_lt.mp fun hlt => hle (hdown hlt), rfl⟩

/-- A caller that was saved 16 bytes before its counter wraps, beside one that stands 8 bytes before. -/
def wrappingPair : Vdec where
  type := .streamParser
  dual := true
  input := ⟨.hevc, 2 ^ 32 - 16, 0x1000, 2 ^ 32 - 16⟩
  slave := some ⟨.hevc, 2 ^ 32 - 8, 0x1008, 2 ^ 32 - 8⟩

theorem vdecSyncInputRead_slower_iff_unwrapped :
    ∃ set, vdecSyncInputRead wrappingPair ⟨0, 0, 2 ^ 32 - 4, 0x100c⟩ = some set ∧
      SetToSlower (2 ^ 32 - 4) 0x100c (2 ^ 32 - 8) 0x1008 set := by
  have hc : CountedBy wrappingPair ⟨0, 0, 2 ^ 32 - 4, 0x100c⟩ (2 ^ 32 - 4) :=
    ⟨rfl, by decide, by decide⟩
  exact (vdecSyncInputRead_slower_iff rfl rfl rfl rfl hc).mpr (.inr (.of_wraps rfl))

/-- 16 bytes behind the wrap the caller seems to be the slower one. -/
theorem wrapped_counter_passes :
    CountedBy wrappingPair ⟨0, 0, 16, 0x1020⟩ (2 ^ 32 + 16) ∧
      vdecGetAssociate wrappingPair = some ⟨.hevc, 2 ^ 32 - 8, 0x1008, 2 ^ 32 - 8⟩ ∧
      ¬ ∃ set, vdecSyncInputRead wrappingPair ⟨0, 0, 16, 0x1020⟩ = some set ∧
        SetToSlower (2 ^ 32 + 16) 0x1020 (2 ^ 32 - 8) 0x1008 set := by
  refine ⟨⟨rfl, by decide, by decide⟩, rfl, ?_⟩
  rw [vdecSyncInputRead_hevc (t := 2 ^ 32 + 16) rfl rfl rfl rfl rfl]
  rintro ⟨set, hset, ⟨hle, -⟩ | ⟨-, hpos⟩⟩
  · omega
  · rw [← Option.some.inj hset] at hpos
    exact absurd hpos (by decide)

end MediaModules.ReadPointer
