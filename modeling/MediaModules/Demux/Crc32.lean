import Mathlib.Data.List.GetD
import MediaModules.Lib.ShiftRegister

/-!
# The section CRC

`swdmx_crc32` and the table it is driven by. Each entry of the table is what the eight bits of its index
leave in an empty shift register, so a step of the loop takes in a byte, and a section that ends with its
own CRC leaves nothing.
-/
namespace MediaModules.Demux

open Lib.ShiftRegister

/-- The inner loop of `crc32_table_init`. It ends after eight shifts, when the marker bit
set below the index byte has become the top bit. -/
def crc32TableLoop : Nat → UInt32 → UInt32 → UInt32
  | 0, _, k => k
  | fuel + 1, j, k =>
    if j ≠ 0x80000000 then
      crc32TableLoop fuel (j <<< 1)
        ((k <<< 1) ^^^ (if (k ^^^ j) &&& 0x80000000 ≠ 0 then 0x04c11db7 else 0))
    else k

/-- `crc32_table[i]`. -/
def crc32Table (i : UInt32) : UInt32 := crc32TableLoop 32 ((i <<< 24) ||| 0x800000) 0

/-- `swdmx_crc32`. -/
def swdmxCrc32 (p : List UInt8) : UInt32 :=
  p.foldl (fun crc b => (crc <<< 8) ^^^ crc32Table ((crc >>> 24) ^^^ b.toUInt32)) 0xffffffff

-- The check value of CRC-32/MPEG-2 for the ASCII digits "123456789".
example : swdmxCrc32 [0x31, 0x32, 0x33, 0x34, 0x35, 0x36, 0x37, 0x38, 0x39] = 0x0376e6e7 := by
  decide +kernel

/-- The polynomial 0x04c11db7. -/
def crc32Poly : BitVec 32 := 0x04c11db7

/-- The CRC bit by bit, each byte from its top bit. -/
def crcSerial (p : List UInt8) : UInt32 :=
  .ofBitVec (feed crc32Poly 0xffffffff (p.flatMap fun b => msbBits b.toBitVec))

/-- The bytes of a CRC, as a section ends with them. -/
def crcBytes (c : UInt32) : List UInt8 :=
  [(c >>> 24).toUInt8, (c >>> 16).toUInt8, (c >>> 8).toUInt8, c.toUInt8]

section Table

variable {j k i crc : UInt32} {bits : List Bool}

theorem top_ne_zero_iff (x : UInt32) : x &&& 0x80000000 ≠ 0 ↔ x.toBitVec.msb = true := by
  have htop : (x &&& 0x80000000).toBitVec = if x.toBitVec.msb then BitVec.twoPow 32 31 else 0#32 := by
    rw [BitVec.msb_eq_getLsbD_last]
    exact BitVec.and_twoPow x.toBitVec 31
  rw [ne_eq, ← UInt32.toBitVec_inj, htop]
  cases x.toBitVec.msb
  · simp
  · simp only [if_true]
    decide

/-- The word has these bits from the top, then the marker. -/
def Marked (j : UInt32) (bits : List Bool) : Prop :=
  ∀ p, j.toBitVec.getMsbD p = (bits ++ [true]).getD p false

theorem marked_nil (h : Marked j []) : j = 0x80000000 := by
  refine UInt32.toBitVec_inj.mp (BitVec.eq_of_getMsbD_eq fun p hp => ?_)
  rw [h p]
  revert p
  decide

theorem Marked.ne {b : Bool} (h : Marked j (b :: bits)) : j ≠ 0x80000000 := by
  rintro rfl
  have hmarker := h (bits.length + 1)
  have hset : (b :: bits ++ [true]).getD (bits.length + 1) false = true := by simp
  have hclear : ∀ p, BitVec.getMsbD 0x80000000#32 (p + 1) = false := by
    intro p
    by_cases hp : p + 1 < 32
    · have hall : ∀ q < 32, 0 < q → BitVec.getMsbD 0x80000000#32 q = false := by decide
      exact hall (p + 1) hp (Nat.succ_pos p)
    · exact BitVec.getMsbD_of_ge _ _ (Nat.not_lt.mp hp)
  rw [hset] at hmarker
  exact absurd (hmarker.symm.trans (hclear bits.length)) (by decide)

theorem Marked.tail {b : Bool} (h : Marked j (b :: bits)) : Marked (j <<< 1) bits := by
  intro p
  have hshift : (j <<< 1).toBitVec = j.toBitVec <<< 1 := rfl
  rw [hshift, BitVec.getMsbD_shiftLeft, h (p + 1)]
  rfl

/-- The loop takes in the bits above the marker. -/
theorem crc32TableLoop_eq {fuel : Nat} (h : Marked j bits) (hfuel : bits.length < fuel) :
    (crc32TableLoop fuel j k).toBitVec = feed crc32Poly k.toBitVec bits := by
  induction bits generalizing fuel j k with
  | nil =>
    obtain ⟨fuel, rfl⟩ := Nat.exists_eq_add_one_of_ne_zero (Nat.ne_of_gt hfuel)
    rw [crc32TableLoop, if_neg (not_not.mpr (marked_nil h))]
    rfl
  | cons b bits ih =>
    obtain ⟨fuel, rfl⟩ := Nat.exists_eq_add_one_of_ne_zero (Nat.ne_of_gt (Nat.zero_lt_of_lt hfuel))
    have hbit : j.toBitVec.msb = b := by
      rw [BitVec.msb_eq_getMsbD_zero, h 0]
      rfl
    have hstep : ((k <<< 1) ^^^ if (k ^^^ j) &&& 0x80000000 ≠ 0 then 0x04c11db7 else 0).toBitVec =
        shiftIn crc32Poly k.toBitVec b := by
      rw [shiftIn, UInt32.toBitVec_xor, if_congr (top_ne_zero_iff _) rfl rfl, UInt32.toBitVec_xor,
        BitVec.msb_xor, hbit]
      split <;> rfl
    rw [crc32TableLoop, if_pos h.ne, ih h.tail (Nat.lt_of_succ_lt_succ hfuel), hstep]
    rfl

/-- Where the loop starts, the bits above the marker are the low byte of the index. -/
theorem marked_index (i : UInt32) :
    Marked ((i <<< 24) ||| 0x800000) (List.ofFn fun p : Fin 8 => i.toBitVec.getLsbD (7 - p)) := by
  intro p
  have hword : ((i <<< 24) ||| 0x800000).toBitVec = (i.toBitVec <<< 24) ||| 0x800000#32 := rfl
  have hmarker : BitVec.getMsbD 0x800000#32 p = decide (p = 8) := by
    by_cases hp : p < 32
    · revert p
      decide
    · rw [BitVec.getMsbD_of_ge _ _ (Nat.not_lt.mp hp), eq_comm, decide_eq_false_iff_not]
      omega
  rw [hword, BitVec.getMsbD_or, BitVec.getMsbD_shiftLeft, hmarker]
  rcases Nat.lt_trichotomy p 8 with hlt | rfl | hgt
  · have hplace : 32 - 1 - (p + 24) = 7 - p := by omega
    rw [BitVec.getMsbD_eq_getLsbD, hplace, decide_eq_true (show p + 24 < 32 by omega),
      decide_eq_false (Nat.ne_of_lt hlt), List.getD_append _ _ _ _ (by simpa using hlt),
      List.getD_eq_getElem _ _ (by simpa using hlt), List.getElem_ofFn, Bool.true_and, Bool.or_false]
  · simp
  · rw [BitVec.getMsbD_of_ge _ _ (by omega), List.getD_eq_default _ _ (by simp; omega)]
    simp [Nat.ne_of_gt hgt]

/-- An entry of the table. -/
theorem crc32Table_eq (i : UInt32) : (crc32Table i).toBitVec =
    feed crc32Poly 0#32 (List.ofFn fun p : Fin 8 => i.toBitVec.getLsbD (7 - p)) :=
  crc32TableLoop_eq (marked_index i) (by simp)

theorem crcStep_eq (crc : UInt32) (b : UInt8) :
    ((crc <<< 8) ^^^ crc32Table ((crc >>> 24) ^^^ b.toUInt32)).toBitVec =
      feed crc32Poly crc.toBitVec (msbBits b.toBitVec) := by
  have hindex : (List.ofFn fun p : Fin 8 =>
      ((crc >>> 24) ^^^ b.toUInt32).toBitVec.getLsbD (7 - p)) =
        against crc.toBitVec (msbBits b.toBitVec) := by
    refine List.ext_getElem (by simp [against, msbBits]) fun p hp _ => ?_
    simp [against, msbBits, BitVec.getMsbD_eq_getLsbD]
  have hlength : (msbBits b.toBitVec).length = 8 := List.length_ofFn
  rw [UInt32.toBitVec_xor, crc32Table_eq, hindex, feed_eq crc32Poly crc.toBitVec, hlength]
  rfl

theorem swdmxCrc32_eq (p : List UInt8) : swdmxCrc32 p = crcSerial p := by
  have hloop (crc : UInt32) : p.foldl
      (fun (crc : UInt32) b => (crc <<< 8) ^^^ crc32Table ((crc >>> 24) ^^^ b.toUInt32)) crc =
        .ofBitVec (feed crc32Poly crc.toBitVec (p.flatMap fun b => msbBits b.toBitVec)) := by
    induction p generalizing crc with
    | nil => rfl
    | cons b p ih => rw [List.foldl_cons, ih, crcStep_eq, List.flatMap_cons, feed_append]
  exact hloop 0xffffffff

theorem crcBytes_bits (c : UInt32) :
    ((crcBytes c).flatMap fun b => msbBits b.toBitVec) = msbBits c.toBitVec := by
  have hbits : msbBits c.toBitVec =
      (List.ofFn fun q : Fin 4 => List.ofFn fun p : Fin 8 => c.toBitVec.getMsbD (q * 8 + p)).flatten :=
    List.ofFn_mul (m := 4) (n := 8) fun i => c.toBitVec.getMsbD i
  rw [hbits, crcBytes, List.flatMap_cons, List.flatMap_cons, List.flatMap_cons, List.flatMap_cons,
    List.flatMap_nil, List.append_nil]
  simp [msbBits, BitVec.getMsbD_eq_getLsbD]

end Table

/-- The table-driven CRC is the one bit by bit, and a message with its own CRC behind it has the CRC 0,
which is what a section is checked for. -/
theorem crc32_bit_serial (p : List UInt8) :
    swdmxCrc32 p = crcSerial p ∧ swdmxCrc32 (p ++ crcBytes (swdmxCrc32 p)) = 0 := by
  refine ⟨swdmxCrc32_eq p, ?_⟩
  rw [swdmxCrc32_eq, swdmxCrc32_eq, crcSerial, List.flatMap_append, feed_append, crcBytes_bits, crcSerial,
    feed_self]
  rfl

end MediaModules.Demux
