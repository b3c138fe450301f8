import MediaModules.PsParser.Parser

/-!
# The bytes of an MPEG-2 header

The fields of a header are popped one after the other, and each takes its size off the length that the
header gives; what is left is popped at the end. The sizes that are taken off are not all the bytes that
were popped, and a length below the sum of the fields goes down through the whole range of its type.
-/
namespace MediaModules.PsParser

section Positions

variable {α β : Type} {bytes : List UInt8} {x : Pop α} {f : α → Pop β} {off mid fin : Nat}
  {a : α} {b : β}

/-- A computation that starts at one place of the bytes ends at another with a value, if there are as
many. -/
structure EndsAt (bytes : List UInt8) (x : Pop α) (off : Nat) (a : α) (fin : Nat) : Prop where
  le : off ≤ fin
  result : off ≤ bytes.length →
    x (bytes.drop off) = if fin ≤ bytes.length then some (a, bytes.drop fin) else none

/-- The byte at a place. -/
def byteAt (bytes : List UInt8) (off : Nat) : UInt8 := bytes[off]?.getD 0

theorem EndsAt.pop : EndsAt bytes pop off (byteAt bytes off) (off + 1) := by
  refine ⟨Nat.le_succ off, fun _ => ?_⟩
  rcases Nat.lt_or_ge off bytes.length with hlt | hge
  · rw [if_pos (Nat.succ_le_of_lt hlt), byteAt, List.getElem?_eq_getElem hlt,
      List.drop_eq_getElem_cons hlt]
    rfl
  · rw [if_neg (Nat.not_le.mpr (Nat.lt_succ_of_le hge)), List.drop_eq_nil_of_le hge]
    rfl

theorem EndsAt.skip (n : Nat) : EndsAt bytes (skip n) off () (off + n) := by
  refine ⟨Nat.le_add_right off n, fun h => ?_⟩
  have hlength : (bytes.drop off).length = bytes.length - off := List.length_drop
  rw [PsParser.skip, List.drop_drop]
  exact if_congr (by omega) rfl rfl

theorem EndsAt.pure (a : α) : EndsAt bytes (pure a : Pop α) off a off :=
  ⟨Nat.le_refl off, fun h => (if_pos h).symm⟩

theorem EndsAt.skipIf (c : Prop) [Decidable c] (n : Nat) :
    EndsAt bytes (skipIf c n) off () (off + if c then n else 0) := by
  by_cases hc : c
  · rw [PsParser.skipIf, if_pos (decide_eq_true hc), if_pos hc]
    exact .skip n
  · rw [PsParser.skipIf, if_neg (by rwa [decide_eq_true_eq]), if_neg hc]
    exact .pure ()

/-- One computation behind another. -/
theorem EndsAt.bind (hx : EndsAt bytes x off a mid) (hf : EndsAt bytes (f a) mid b fin) :
    EndsAt bytes (x >>= f) off b fin := by
  refine ⟨Nat.le_trans hx.le hf.le, fun h => ?_⟩
  have hbind : (x >>= f) (bytes.drop off) = (x (bytes.drop off)).bind fun y => f y.1 y.2 := rfl
  rw [hbind, hx.result h]
  by_cases hmid : mid ≤ bytes.length
  · rw [if_pos hmid]
    exact hf.result hmid
  · rw [if_neg hmid, if_neg fun hfin => hmid (Nat.le_trans hf.le hfin)]
    rfl

theorem EndsAt.eq_iff (h : EndsAt bytes x 0 a mid) (hfin : fin ≤ bytes.length) :
    (∃ a', x bytes = some (a', bytes.drop fin)) ↔ mid = fin := by
  have hresult := h.result (Nat.zero_le _)
  rw [List.drop_zero] at hresult
  rw [hresult]
  constructor
  · rintro ⟨a', ha'⟩
    split at ha'
    · have hdrop : bytes.drop mid = bytes.drop fin := congrArg Prod.snd (Option.some.inj ha')
      have hlength := congrArg List.length hdrop
      rw [List.length_drop, List.length_drop] at hlength
      omega
    · exact nomatch ha'
  · rintro rfl
    exact ⟨a, if_pos hfin⟩

end Positions

/-! ## The fields -/

section Fields

variable {bytes : List UInt8} {misc ext headerLen : UInt8} {off : Nat} {left : Int}

/-- What the timestamps take off the length, and the fields behind them. -/
def stampSize (misc : UInt8) : Nat := (if misc >>> 6 > 1 then 5 else 0) + (if misc >>> 6 > 2 then 5 else 0)

def skippedSize (misc : UInt8) : Nat :=
  (if misc &&& 0x20 ≠ 0 then 5 else 0) + (if misc &&& 0x10 ≠ 0 then 3 else 0) +
    (if misc &&& 0x08 ≠ 0 then 1 else 0) + (if misc &&& 0x04 ≠ 0 then 1 else 0) +
    (if misc &&& 0x02 ≠ 0 then 2 else 0)

/-- What the fields in front of the extension take off. -/
def optionalSize (misc : UInt8) : Nat := stampSize misc + skippedSize misc

/-- Where they end. The ESCR is a byte longer than it counts. -/
def optionalEnd (misc : UInt8) : Nat := optionalSize misc + if misc &&& 0x20 ≠ 0 then 1 else 0

/-- What the extension takes off, its flags included, when `left` was left of the length. -/
def extensionSize (ext : UInt8) (left : Int) : Nat :=
  1 + (if ext &&& 0x80 ≠ 0 ∧ left - 1 ≥ 128 then 128 else 0) + (if ext &&& 0x20 ≠ 0 then 2 else 0) +
    (if ext &&& 0x10 ≠ 0 then 2 else 0)

/-- Where a header with an extension at `off` ends. The length of the second extension is not counted. -/
def extensionEnd (bytes : List UInt8) (left : Int) (off : Nat) : Nat :=
  let n := extensionSize (byteAt bytes off) left
  if byteAt bytes off &&& 1 ≠ 0 then
    let temp := (byteAt bytes (off + n) &&& 0x7f).toNat
    off + n + 1 + temp + ((left - n - temp) % 65536).toNat
  else off + n + ((left - n) % 65536).toNat

/-- Where a header ends, behind its length. -/
def fieldsEnd (misc headerLen : UInt8) (bytes : List UInt8) : Nat :=
  let left : Int := headerLen.toNat - optionalSize misc
  if misc &&& 1 ≠ 0 then extensionEnd bytes left (optionalEnd misc)
  else optionalEnd misc + (left % 65536).toNat

/-- What is taken off at a field. -/
theorem takeOff (c : Prop) [Decidable c] (left n : Int) :
    (if c then left - n else left) = left - if c then n else 0 := by
  by_cases hc : c
  · rw [if_pos hc, if_pos hc]
  · rw [if_neg hc, if_neg hc]
    exact (Int.sub_zero left).symm

theorem EndsAt.skipHeader (left : Int) :
    EndsAt bytes (skipHeader left) off () (off + (left % 65536).toNat) := .skip _

theorem mpeg2Extension_ends (left : Int) :
    EndsAt bytes (mpeg2Extension left) off () (extensionEnd bytes left off) := by
  have hleft : left - extensionSize (byteAt bytes off) left = left - 1 -
      (if byteAt bytes off &&& 0x80 ≠ 0 ∧ left - 1 ≥ 128 then 128 else 0) -
      (if byteAt bytes off &&& 0x20 ≠ 0 then 2 else 0) -
      (if byteAt bytes off &&& 0x10 ≠ 0 then 2 else 0) := by
    rw [extensionSize]
    push_cast
    omega
  have hplace : off + 1 + (if byteAt bytes off &&& 0x80 ≠ 0 ∧ left - 1 ≥ 128 then 128 else 0) +
      (if byteAt bytes off &&& 0x20 ≠ 0 then 2 else 0) + (if byteAt bytes off &&& 0x10 ≠ 0 then 2 else 0) =
      off + extensionSize (byteAt bytes off) left := by
    rw [extensionSize]
    omega
  rw [mpeg2Extension]
  refine EndsAt.bind .pop ?_
  dsimp only
  refine EndsAt.bind (.skipIf _ 128) (EndsAt.bind (.skipIf _ 2) (EndsAt.bind (.skipIf _ 2) ?_))
  simp only [takeOff]
  rw [hplace, ← hleft, extensionEnd]
  dsimp only
  split
  · exact EndsAt.bind .pop (EndsAt.bind (.skip _) (.skipHeader _))
  · exact EndsAt.skipHeader _

theorem popTimestamp_ends (bytes : List UInt8) (off : Nat) (first : UInt8) :
    ∃ pts, EndsAt bytes (popTimestamp first) off pts (off + 4) :=
  ⟨_, .bind .pop (.bind .pop (.bind .pop (.bind .pop (.pure _))))⟩

/-- A timestamp, when its flag is there. -/
def popStamp (flag : Bool) : Pop UInt32 := if flag then do popTimestamp (← pop) else pure 0

theorem popStamp_ends (bytes : List UInt8) (off : Nat) (flag : Bool) :
    ∃ pts, EndsAt bytes (popStamp flag) off pts (off + if flag then 5 else 0) := by
  cases flag with
  | true =>
    obtain ⟨pts, hpts⟩ := popTimestamp_ends bytes (off + 1) (byteAt bytes off)
    exact ⟨pts, EndsAt.bind .pop hpts⟩
  | false => exact ⟨0, .pure 0⟩

/-- The fields behind the timestamps. -/
def skipFields (misc : UInt8) (left : Int) : Pop Unit := do
  skipIf (misc &&& 0x20 ≠ 0) 6
  let left := if misc &&& 0x20 ≠ 0 then left - 5 else left
  skipIf (misc &&& 0x10 ≠ 0) 3
  let left := if misc &&& 0x10 ≠ 0 then left - 3 else left
  skipIf (misc &&& 0x08 ≠ 0) 1
  let left := if misc &&& 0x08 ≠ 0 then left - 1 else left
  skipIf (misc &&& 0x04 ≠ 0) 1
  let left := if misc &&& 0x04 ≠ 0 then left - 1 else left
  skipIf (misc &&& 0x02 ≠ 0) 2
  let left := if misc &&& 0x02 ≠ 0 then left - 2 else left
  if misc &&& 0x01 ≠ 0 then mpeg2Extension left else skipHeader left

theorem mpeg2Fields_eq (misc headerLen : UInt8) : mpeg2Fields misc headerLen = do
    let pts ← popStamp (misc >>> 6 > 1)
    let dts ← popStamp (misc >>> 6 > 2)
    skipFields misc (headerLen.toNat - (if misc >>> 6 > 1 then 5 else 0) - (if misc >>> 6 > 2 then 5 else 0))
    return (pts, dts, decide (misc >>> 6 > 1), decide (misc >>> 6 > 2)) := by
  unfold mpeg2Fields popStamp skipFields
  simp only [decide_eq_true_eq]
  by_cases hpts : misc >>> 6 > 1 <;> by_cases hdts : misc >>> 6 > 2 <;>
    by_cases hext : misc &&& 1 = 0 <;>
      simp only [hpts, hdts, hext, ne_eq, not_true_eq_false, not_false_eq_true, if_true, if_false,
        bind_assoc, pure_bind]

theorem skipFields_ends (bytes : List UInt8) (misc : UInt8) (left : Int) (off : Nat) :
    EndsAt bytes (skipFields misc left) off ()
      (if misc &&& 1 ≠ 0 then
        extensionEnd bytes (left - skippedSize misc)
          (off + skippedSize misc + if misc &&& 0x20 ≠ 0 then 1 else 0)
      else off + skippedSize misc + (if misc &&& 0x20 ≠ 0 then 1 else 0) +
        ((left - skippedSize misc) % 65536).toNat) := by
  have hleft : left - skippedSize misc = left - (if misc &&& 0x20 ≠ 0 then 5 else 0) -
      (if misc &&& 0x10 ≠ 0 then 3 else 0) - (if misc &&& 0x08 ≠ 0 then 1 else 0) -
      (if misc &&& 0x04 ≠ 0 then 1 else 0) - (if misc &&& 0x02 ≠ 0 then 2 else 0) := by
    rw [skippedSize]
    push_cast
    omega
  have hplace : off + (if misc &&& 0x20 ≠ 0 then 6 else 0) + (if misc &&& 0x10 ≠ 0 then 3 else 0) +
      (if misc &&& 0x08 ≠ 0 then 1 else 0) + (if misc &&& 0x04 ≠ 0 then 1 else 0) +
      (if misc &&& 0x02 ≠ 0 then 2 else 0) =
      off + skippedSize misc + if misc &&& 0x20 ≠ 0 then 1 else 0 := by
    have hescr : (if misc &&& 0x20 ≠ 0 then 6 else 0) =
        (if misc &&& 0x20 ≠ 0 then 5 else 0) + if misc &&& 0x20 ≠ 0 then 1 else 0 := by
      split <;> rfl
    rw [skippedSize, hescr]
    omega
  rw [skipFields]
  refine EndsAt.bind (.skipIf _ 6) ?_
  dsimp only
  refine EndsAt.bind (.skipIf _ 3) (EndsAt.bind (.skipIf _ 1) (EndsAt.bind (.skipIf _ 1)
    (EndsAt.bind (.skipIf _ 2) ?_)))
  simp only [takeOff]
  rw [hplace, ← hleft]
  split
  · exact mpeg2Extension_ends _
  · exact EndsAt.skipHeader _

theorem mpeg2Fields_ends (misc headerLen : UInt8) (bytes : List UInt8) :
    ∃ stamps, EndsAt bytes (mpeg2Fields misc headerLen) 0 stamps (fieldsEnd misc headerLen bytes) := by
  obtain ⟨pts, hpts⟩ := popStamp_ends bytes 0 (misc >>> 6 > 1)
  obtain ⟨dts, hdts⟩ := popStamp_ends bytes
    (0 + if (decide (misc >>> 6 > 1)) = true then 5 else 0) (misc >>> 6 > 2)
  simp only [decide_eq_true_eq] at hpts hdts
  have hplace : 0 + (if misc >>> 6 > 1 then 5 else 0) + (if misc >>> 6 > 2 then 5 else 0) =
      stampSize misc := by
    rw [stampSize]
    omega
  have hleft : (headerLen.toNat : Int) - (if misc >>> 6 > 1 then 5 else 0) -
      (if misc >>> 6 > 2 then 5 else 0) - skippedSize misc = headerLen.toNat - optionalSize misc := by
    rw [optionalSize, stampSize]
    push_cast
    omega
  have hrest := skipFields_ends bytes misc ((headerLen.toNat : Int) -
    (if misc >>> 6 > 1 then 5 else 0) - (if misc >>> 6 > 2 then 5 else 0)) (stampSize misc)
  have hend : (if misc &&& 1 ≠ 0 then
        extensionEnd bytes (headerLen.toNat - optionalSize misc)
          (stampSize misc + skippedSize misc + if misc &&& 0x20 ≠ 0 then 1 else 0)
      else stampSize misc + skippedSize misc + (if misc &&& 0x20 ≠ 0 then 1 else 0) +
        (((headerLen.toNat : Int) - optionalSize misc) % 65536).toNat) =
      fieldsEnd misc headerLen bytes := rfl
  rw [hleft, hend, ← hplace] at hrest
  rw [mpeg2Fields_eq]
  exact ⟨_, EndsAt.bind hpts (EndsAt.bind hdts (EndsAt.bind hrest (.pure _)))⟩

theorem part_le (c : Prop) [Decidable c] (n : Nat) : (if c then n else 0) ≤ n := by
  split
  · exact Nat.le_refl n
  · exact Nat.zero_le n

theorem extensionSize_le (ext : UInt8) (left : Int) : extensionSize ext left ≤ 133 := by
  have hprivate := part_le (ext &&& 0x80 ≠ 0 ∧ left - 1 ≥ 128) 128
  have hcounter := part_le (ext &&& 0x20 ≠ 0) 2
  have hbuffer := part_le (ext &&& 0x10 ≠ 0) 2
  rw [extensionSize]
  omega

theorem optionalSize_le (misc : UInt8) : optionalSize misc ≤ 22 := by
  have hpts := part_le (misc >>> 6 > 1) 5
  have hdts := part_le (misc >>> 6 > 2) 5
  have hescr := part_le (misc &&& 0x20 ≠ 0) 5
  have hrate := part_le (misc &&& 0x10 ≠ 0) 3
  have htrick := part_le (misc &&& 0x08 ≠ 0) 1
  have hcopy := part_le (misc &&& 0x04 ≠ 0) 1
  have hcrc := part_le (misc &&& 0x02 ≠ 0) 2
  rw [optionalSize, stampSize, skippedSize]
  omega

/-- The sizes of all fields, as they are counted. -/
def countedSize (misc headerLen : UInt8) (bytes : List UInt8) : Nat :=
  optionalSize misc + if misc &&& 1 ≠ 0 then
    extensionSize (byteAt bytes (optionalSize misc)) (headerLen.toNat - optionalSize misc) else 0

/-- A header whose fields are counted as they are popped, and fit into its length. -/
structure Counts (misc headerLen : UInt8) (bytes : List UInt8) : Prop where
  noEscr : misc &&& 0x20 = 0
  noSecond : misc &&& 1 ≠ 0 → byteAt bytes (optionalSize misc) &&& 1 = 0
  fits : countedSize misc headerLen bytes ≤ headerLen.toNat

theorem mod_range (left : Int) (h : -65536 ≤ left) (h' : left < 65536) :
    ((left % 65536).toNat : Int) = if 0 ≤ left then left else left + 65536 := by
  split
  · omega
  · omega

/-- An extension ends where the length says when no second one follows and it fits, else behind that. -/
theorem extensionEnd_iff (bytes : List UInt8) (left : Int) (off : Nat) (h : -256 ≤ left) (h' : left < 256) :
    off + left ≤ extensionEnd bytes left off ∧ extensionEnd bytes left off ≤ off + left + 65537 ∧
      ((extensionEnd bytes left off : Int) = off + left ↔
        byteAt bytes off &&& 1 = 0 ∧ extensionSize (byteAt bytes off) left ≤ left) := by
  have hsize := extensionSize_le (byteAt bytes off) left
  rw [extensionEnd]
  dsimp only
  generalize extensionSize (byteAt bytes off) left = n at hsize ⊢
  by_cases hsecond : byteAt bytes off &&& 1 = 0
  · rw [if_neg (not_not.mpr hsecond)]
    have hmod := mod_range (left - n) (by omega) (by omega)
    split at hmod
    · exact ⟨by omega, by omega, fun _ => ⟨hsecond, by omega⟩, fun _ => by omega⟩
    · exact ⟨by omega, by omega, fun heq => by omega, fun hboth => by omega⟩
  · rw [if_pos hsecond]
    have htemp : (byteAt bytes (off + n) &&& 0x7f).toNat < 256 := UInt8.toNat_lt _
    generalize (byteAt bytes (off + n) &&& 0x7f).toNat = temp at htemp ⊢
    have hmod := mod_range (left - n - temp) (by omega) (by omega)
    split at hmod
    · exact ⟨by omega, by omega, fun heq => by omega, fun hboth => absurd hboth.1 hsecond⟩
    · exact ⟨by omega, by omega, fun heq => by omega, fun hboth => absurd hboth.1 hsecond⟩

/-- A header ends at its length exactly then. -/
theorem fieldsEnd_iff (misc headerLen : UInt8) (bytes : List UInt8) :
    fieldsEnd misc headerLen bytes = headerLen.toNat ↔ Counts misc headerLen bytes := by
  have hlength : headerLen.toNat < 256 := UInt8.toNat_lt _
  have hsize := optionalSize_le misc
  rw [fieldsEnd]
  by_cases hescr : misc &&& 0x20 = 0
  · have hplace : optionalEnd misc = optionalSize misc := by
      rw [optionalEnd, if_neg (not_not.mpr hescr), Nat.add_zero]
    rw [hplace]
    by_cases hext : misc &&& 1 = 0
    · have hmod := mod_range ((headerLen.toNat : Int) - optionalSize misc) (by omega) (by omega)
      rw [if_neg (not_not.mpr hext)]
      constructor
      · intro hend
        refine ⟨hescr, fun hno => absurd hext hno, ?_⟩
        rw [countedSize, if_neg (not_not.mpr hext)]
        split at hmod <;> omega
      · intro hcounts
        have hfits := hcounts.fits
        rw [countedSize, if_neg (not_not.mpr hext)] at hfits
        rw [if_pos (by omega)] at hmod
        omega
    · obtain ⟨-, -, hiff⟩ := extensionEnd_iff bytes
        (headerLen.toNat - optionalSize misc) (optionalSize misc) (by omega) (by omega)
      rw [if_pos hext]
      constructor
      · intro hend
        obtain ⟨hsecond, hfits⟩ := hiff.mp (by omega)
        refine ⟨hescr, fun _ => hsecond, ?_⟩
        rw [countedSize, if_pos hext]
        omega
      · intro hcounts
        have hfits := hcounts.fits
        rw [countedSize, if_pos hext] at hfits
        have hend := hiff.mpr ⟨hcounts.noSecond hext, by omega⟩
        omega
  · have hplace : optionalEnd misc = optionalSize misc + 1 := by
      rw [optionalEnd, if_pos hescr]
    rw [hplace]
    refine ⟨fun hend => ?_, fun hcounts => absurd hcounts.noEscr hescr⟩
    by_cases hext : misc &&& 1 = 0
    · have hmod := mod_range ((headerLen.toNat : Int) - optionalSize misc) (by omega) (by omega)
      rw [if_neg (not_not.mpr hext)] at hend
      split at hmod <;> omega
    · obtain ⟨hle, -, -⟩ := extensionEnd_iff bytes
        (headerLen.toNat - optionalSize misc) (optionalSize misc + 1) (by omega) (by omega)
      rw [if_pos hext] at hend
      omega

/-- No header goes on for more than the range of the count, and two bytes. -/
theorem fieldsEnd_le (misc headerLen : UInt8) (bytes : List UInt8) :
    fieldsEnd misc headerLen bytes ≤ headerLen.toNat + 65538 := by
  have hlength : headerLen.toNat < 256 := UInt8.toNat_lt _
  have hsize := optionalSize_le misc
  have hescr := part_le (misc &&& 0x20 ≠ 0) 1
  have hplace : optionalEnd misc ≤ optionalSize misc + 1 := Nat.add_le_add_left hescr _
  rw [fieldsEnd]
  by_cases hext : misc &&& 1 = 0
  · rw [if_neg (not_not.mpr hext)]
    have hmod := mod_range ((headerLen.toNat : Int) - optionalSize misc) (by omega) (by omega)
    split at hmod <;> omega
  · rw [if_pos hext]
    obtain ⟨-, hle, -⟩ := extensionEnd_iff bytes
      (headerLen.toNat - optionalSize misc) (optionalEnd misc) (by omega) (by omega)
    omega

end Fields

/-! ## The header -/

section Header

variable {temp misc headerLen : UInt8} {bytes : List UInt8}

theorem pesHeader_mpeg2 (packetLen : Int) (htemp : temp >>> 6 = 2) :
    pesHeader packetLen (temp :: misc :: headerLen :: bytes) =
      (mpeg2Fields misc headerLen bytes).map fun r =>
        (⟨packetLen - 1 - 2 - headerLen.toNat, r.1.1, r.1.2.1, r.1.2.2.1, r.1.2.2.2⟩, r.2) := by
  have hbind : pesHeader packetLen (temp :: misc :: headerLen :: bytes) =
      (if temp >>> 6 = 2 then mpeg2Header (packetLen - 1) else mpeg1Header temp (packetLen - 1))
        (misc :: headerLen :: bytes) := rfl
  rw [hbind, if_pos htemp]
  have hfields : mpeg2Header (packetLen - 1) (misc :: headerLen :: bytes) =
      (mpeg2Fields misc headerLen bytes).bind fun r =>
        some (⟨packetLen - 1 - 2 - headerLen.toNat, r.1.1, r.1.2.1, r.1.2.2.1, r.1.2.2.2⟩, r.2) := rfl
  rw [hfields]
  cases mpeg2Fields misc headerLen bytes <;> rfl

/-- The header of an MPEG-2 packet pops as many bytes as its length says exactly when its fields are counted
as they are popped and fit; and in any case it comes to an end. -/
theorem pes_header_length_iff (packetLen : Int) (htemp : temp >>> 6 = 2)
    (hbytes : headerLen.toNat ≤ bytes.length) :
    ((∃ h, pesHeader packetLen (temp :: misc :: headerLen :: bytes) =
      some (h, bytes.drop headerLen.toNat)) ↔ Counts misc headerLen bytes) ∧
    (headerLen.toNat + 65538 ≤ bytes.length →
      (pesHeader packetLen (temp :: misc :: headerLen :: bytes)).isSome = true) := by
  obtain ⟨stamps, hends⟩ := mpeg2Fields_ends misc headerLen bytes
  rw [pesHeader_mpeg2 packetLen htemp, ← fieldsEnd_iff, ← hends.eq_iff hbytes]
  refine ⟨⟨?_, ?_⟩, fun hmany => ?_⟩
  · rintro ⟨h, hh⟩
    obtain ⟨r, hr, heq⟩ := Option.map_eq_some_iff.mp hh
    have hrest : r.2 = bytes.drop headerLen.toNat := congrArg Prod.snd heq
    exact ⟨r.1, hr.trans (congrArg some (Prod.ext rfl hrest))⟩
  · rintro ⟨a, ha⟩
    exact ⟨_, by rw [ha]; rfl⟩
  · have hresult := hends.result (Nat.zero_le _)
    rw [List.drop_zero, if_pos (Nat.le_trans (fieldsEnd_le misc headerLen bytes) hmany)] at hresult
    rw [hresult]
    rfl

/-- A header of five bytes with a timestamp. -/
theorem stamped_header_length : (∃ h, pesHeader 100 [0x80, 0x80, 5, 0x21, 0, 1, 0, 1, 0xaa] =
    some (h, [0xaa])) ∧ Counts 0x80 5 [0x21, 0, 1, 0, 1, 0xaa] := by
  have hcounts : Counts 0x80 5 [0x21, 0, 1, 0, 1, 0xaa] :=
    ⟨by decide, fun hno => absurd hno (by decide), by decide⟩
  exact ⟨(@pes_header_length_iff 0x80 0x80 5 [0x21, 0, 1, 0, 1, 0xaa] 100 (by decide) (by decide)).1.mpr
    hcounts, hcounts⟩

/-- A header of six bytes that are an ESCR pops a seventh. -/
theorem escr_header_length : ¬ ∃ h, pesHeader 100 [0x80, 0x20, 6, 4, 0, 4, 0, 4, 1, 0xaa, 0xbb] =
    some (h, [0xaa, 0xbb]) := by
  rintro ⟨h, hh⟩
  have hrest : (pesHeader 100 [0x80, 0x20, 6, 4, 0, 4, 0, 4, 1, 0xaa, 0xbb]).map Prod.snd = some [0xbb] := by
    decide +kernel
  rw [hh] at hrest
  have hsame : ([0xaa, 0xbb] : List UInt8) = [0xbb] := Option.some.inj hrest
  exact absurd hsame (by decide)

end Header

end MediaModules.PsParser
