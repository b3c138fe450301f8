import MediaModules.FrameInput.Input
import MediaModules.Lib.Ring

/-!
# The bytes of a frame in its block

`vframe_chunk_fill` copies a frame behind the write pointer of its block and sets the padding.
The memory of a block may be mapped for good; otherwise it is mapped in windows of 1 MiB. Addresses
are counted from the start of the block.
-/
namespace MediaModules.FrameInput

open MediaModules.Lib.Ring

/-- `enum vformat_e`, as far as the padding tells formats apart. -/
inductive VFormat
  | avs2
  | avs3
  | other
  deriving DecidableEq, Repr

/-- The bytes behind a pointer of the caller; those that cannot be read are `none`. -/
abbrev UserBuffer := Nat → Option UInt8

/-- The memory at a distance from the start of the block. -/
abbrev BlockMemory := Int → UInt8

/-- What a fill depends on beside its arguments. -/
structure Surroundings where
  format : VFormat
  /-- `is_mapped` of the block -/
  isMapped : Bool
  /-- `codec_mm_vmap` maps these bytes -/
  vmap : Int → Nat → Bool

/-- `SZ_1M`. -/
@[irreducible] def span : Nat := 1048576

def efault : Int := -14

/-- The bytes before the first one that cannot be read, at most `n`. -/
def readable (buf : UserBuffer) (src : Nat) : Nat → List UInt8
  | 0 => []
  | n + 1 =>
    match buf src with
    | none => []
    | some x => x :: readable buf (src + 1) n

/-- `aml_copy_from_user`: it sets the bytes to zero that it could not copy, and counts them. -/
def amlCopyFromUser (mem : BlockMemory) (dst : Int) (buf : UserBuffer) (src n : Nat) :
    BlockMemory × Nat :=
  let bytes := readable buf src n
  (put mem dst (bytes ++ List.replicate (n - bytes.length) 0), n - bytes.length)

/-- `min` of two `u32`. -/
def min32 (x y : UInt32) : UInt32 := if x < y then x else y

theorem min32_toNat (x y : UInt32) : (min32 x y).toNat = min x.toNat y.toNat := by
  unfold min32
  split
  · rename_i hlt
    exact (Nat.min_eq_left (Nat.le_of_lt (UInt32.lt_iff_toNat_lt.mp hlt))).symm
  · rename_i hnot
    exact (Nat.min_eq_right (UInt32.le_iff_toNat_le.mp (UInt32.not_lt.mp hnot))).symm

namespace Surroundings
variable (env : Surroundings)

def paddingByte : UInt8 := if env.format = .avs2 ∨ env.format = .avs3 then 0xff else 0

/-- The loop over the whole windows, with its result. -/
def copyWindows (buf : UserBuffer) : Nat → Int → Nat → BlockMemory → BlockMemory × Int
  | _, _, 0, mem => (mem, 0)
  | src, phys, count + 1, mem =>
    if env.vmap phys span then
      let r := amlCopyFromUser mem phys buf src span
      if r.2 ≠ 0 then (r.1, efault) else copyWindows buf (src + span) (phys + span) count r.1
    else
      (mem, -1)

/-- `copy_from_user_to_phyaddr`; `none` when the mapping of the rest is too short for it, since its
length overflowed. -/
def copyFromUserToPhyaddr (mem : BlockMemory) (virts : Int) (buf : UserBuffer) (src : Nat)
    (size : UInt32) (phys : Int) (padding : UInt32) : Option (BlockMemory × Int) :=
  let fill := List.replicate padding.toNat env.paddingByte
  if env.isMapped then
    let r := amlCopyFromUser mem virts buf src size.toNat
    if r.2 ≠ 0 then some (r.1, efault) else some (put r.1 (virts + size.toNat) fill, 0)
  else
    let remain := size.toNat % span
    let whole := size.toNat - remain
    let w := env.copyWindows buf src phys (size.toNat / span) mem
    if w.2 ≠ 0 then some w
    else if remain = 0 then some (w.1, 0)
    else if env.vmap (phys + whole) ((remain + padding.toNat) % 2 ^ 32) then
      if remain + padding.toNat < 2 ^ 32 then
        let r := amlCopyFromUser w.1 (phys + whole) buf (src + whole) remain
        if r.2 ≠ 0 then some (r.1, efault) else some (put r.1 (phys + whole + remain) fill, 0)
      else
        none
    else
      some (w.1, -1)

/-- How much of a frame goes before the end of a block in circles. -/
def firstLen (block : VframeBlock) (count : UInt64) : UInt64 :=
  let room := (block.size - block.wp).toUInt64
  if room < count then room else count

/-- The copies of `vframe_chunk_fill`, with their results. -/
def fillCopies (mem : BlockMemory) (chunk : VframeChunk) (buf : UserBuffer) (count : UInt64)
    (block : VframeBlock) : Option (BlockMemory × List Int) :=
  let p : Int := block.wp.toNat
  match block.type with
  | .frameBlock => do
    let (mem, e) ← env.copyFromUserToPhyaddr mem p buf 0 count.toUInt32 p chunk.paddingSize
    return (mem, [e])
  | .frameCircular => do
    let len := firstLen block count
    let (mem, e) ← env.copyFromUserToPhyaddr mem p buf 0 len.toUInt32 p 0
    if count > len then
      let (mem, e') ← env.copyFromUserToPhyaddr mem (p + len.toNat) buf len.toNat
        (count - len).toUInt32 0 0
      return (mem, [e, e'])
    else
      return (mem, [e])
  | _ => return (mem, [])

/-- `memset` to zero, through a mapping of its own if need be; `none` when that fails. -/
def clear (mem : BlockMemory) (p phys : Int) (len : UInt32) : Option BlockMemory :=
  if env.isMapped then some (put mem p (List.replicate len.toNat 0))
  else if len = 0 ∨ env.vmap phys len.toNat then
    some (put mem phys (List.replicate len.toNat 0))
  else none

/-- The write pointer behind the frame, as a `u32`. -/
def frameEnd (block : VframeBlock) (count : UInt64) : UInt32 :=
  let wp := (block.wp.toUInt64 + count).toUInt32
  if wp ≥ block.size then wp - block.size else wp

/-- The padding that `vframe_chunk_fill` writes to a block in circles. -/
def clearPadding (mem : BlockMemory) (chunk : VframeChunk) (count : UInt64) (block : VframeBlock) :
    Option BlockMemory := do
  let p : Int := block.wp.toNat + count.toNat
  let wp := frameEnd block count
  let len := min32 (block.size - wp) chunk.paddingSize
  let mem ← env.clear mem p wp.toNat len
  if chunk.paddingSize > len then env.clear mem 0 0 (chunk.paddingSize - len) else some mem

/-- `vframe_chunk_fill`. -/
def vframeChunkFill (mem : BlockMemory) (chunk : VframeChunk) (buf : UserBuffer) (count : UInt64)
    (block : VframeBlock) : Option (BlockMemory × Int) :=
  (env.fillCopies mem chunk buf count block).bind fun (mem, _) =>
    -- the results of the copies are not looked at
    if block.type = .frameCircular then
      (env.clearPadding mem chunk count block).map fun mem => (mem, 0)
    else
      some (mem, 0)

end Surroundings

section Readable
variable {buf : UserBuffer} {src : Nat} {n : Nat}

theorem readable_get {k : Nat} (hk : k < (readable buf src n).length) :
    buf (src + k) = some (readable buf src n)[k] := by
  induction n generalizing src k with
  | zero => exact absurd hk (Nat.not_lt_zero k)
  | succ n ih =>
    cases hx : buf src with
    | none =>
      simp only [readable, hx] at hk
      exact absurd hk (Nat.not_lt_zero k)
    | some x =>
      simp only [readable, hx] at hk ⊢
      cases k with
      | zero => exact hx
      | succ k =>
        have hrest := ih (Nat.lt_of_succ_lt_succ hk)
        rw [Nat.add_right_comm] at hrest
        exact hrest

/-- Without a byte that cannot be read all of them are. -/
theorem readable_length (h : ∀ k < n, (buf (src + k)).isSome) :
    (readable buf src n).length = n := by
  induction n generalizing src with
  | zero => rfl
  | succ n ih =>
    obtain ⟨x, hx⟩ := Option.isSome_iff_exists.mp (h 0 (Nat.succ_pos n))
    have hrest : (readable buf (src + 1) n).length = n := by
      apply ih
      intro k hk
      rw [Nat.add_assoc, Nat.add_comm 1 k]
      exact h (k + 1) (Nat.succ_lt_succ hk)
    rw [Nat.add_zero] at hx
    simp only [readable, hx, List.length_cons, hrest]

theorem readable_length_le (buf : UserBuffer) (src n : Nat) : (readable buf src n).length ≤ n := by
  induction n generalizing src with
  | zero => exact Nat.le_refl 0
  | succ n ih =>
    cases hx : buf src with
    | none =>
      simp only [readable, hx]
      exact Nat.zero_le _
    | some x =>
      simp only [readable, hx]
      exact Nat.succ_le_succ (ih (src + 1))

theorem readable_add {m : Nat} (h : (readable buf src m).length = m) :
    readable buf src (m + n) = readable buf src m ++ readable buf (src + m) n := by
  induction m generalizing src with
  | zero => simp [readable]
  | succ m ih =>
    cases hx : buf src with
    | none =>
      simp only [readable, hx] at h
      exact nomatch h
    | some x =>
      simp only [readable, hx, List.length_cons, Nat.add_right_cancel_iff] at h
      simp only [Nat.succ_add m n, readable, hx, List.cons_append]
      rw [ih h, Nat.add_right_comm, Nat.add_assoc]

theorem readable_split {m : Nat} (h : (readable buf src (m + n)).length = m + n) :
    (readable buf src m).length = m ∧ (readable buf (src + m) n).length = n ∧
      readable buf src (m + n) = readable buf src m ++ readable buf (src + m) n := by
  have hfirst : (readable buf src m).length = m := by
    apply readable_length
    intro k hk
    have hk : k < (readable buf src (m + n)).length := by omega
    rw [readable_get hk]
    rfl
  have hbytes := readable_add (n := n) hfirst
  refine ⟨hfirst, ?_, hbytes⟩
  rw [hbytes, List.length_append, hfirst] at h
  omega

theorem amlCopyFromUser_full (mem : BlockMemory) (dst : Int)
    (h : (readable buf src n).length = n) :
    amlCopyFromUser mem dst buf src n = (put mem dst (readable buf src n), 0) := by
  unfold amlCopyFromUser
  dsimp only
  rw [h, Nat.sub_self, List.replicate_zero, List.append_nil]

theorem amlCopyFromUser_ok {mem : BlockMemory} {dst : Int}
    (h : ¬ (amlCopyFromUser mem dst buf src n).2 ≠ 0) :
    (readable buf src n).length = n ∧
      (amlCopyFromUser mem dst buf src n).1 = put mem dst (readable buf src n) := by
  have hzero : n - (readable buf src n).length = 0 := not_not.mp h
  have hle := readable_length_le buf src n
  have hlen : (readable buf src n).length = n := by omega
  exact ⟨hlen, congrArg Prod.fst (amlCopyFromUser_full mem dst hlen)⟩

end Readable

section Copies
variable {env : Surroundings} {buf : UserBuffer} {src : Nat} {phys : Int} {mem mem' : BlockMemory}

theorem copyWindows_ok {count : Nat} (h : ¬ (env.copyWindows buf src phys count mem).2 ≠ 0) :
    (readable buf src (count * span)).length = count * span ∧
      (env.copyWindows buf src phys count mem).1 =
        put mem phys (readable buf src (count * span)) := by
  induction count generalizing src phys mem with
  | zero =>
    rw [Nat.zero_mul]
    exact ⟨rfl, (put_nil mem phys).symm⟩
  | succ count ih =>
    have hmul : (count + 1) * span = span + count * span := by rw [Nat.succ_mul, Nat.add_comm]
    unfold Surroundings.copyWindows at h ⊢
    split at h
    · rename_i hvmap
      dsimp only at h ⊢
      rw [if_pos hvmap]
      split at h
      · exact absurd (show efault ≠ 0 by decide) h
      · rename_i hfirst
        obtain ⟨hlen, hput⟩ := amlCopyFromUser_ok hfirst
        obtain ⟨hrest, hmem⟩ := ih h
        have hbytes := readable_add (n := count * span) hlen
        rw [if_neg hfirst, hmul, hbytes, List.length_append, hlen, hrest, hmem, hput,
          put_behind mem phys _ (by rw [hlen])]
        exact ⟨rfl, rfl⟩
    · exact absurd (show (-1 : Int) ≠ 0 by decide) h

/-- A copy in windows that succeeds: the padding is only set behind a rest. -/
theorem unmapped_ok {virts : Int} {size padding : UInt32} (hmode : env.isMapped = false)
    (h : env.copyFromUserToPhyaddr mem virts buf src size phys padding = some (mem', 0)) :
    (readable buf src size.toNat).length = size.toNat ∧
      mem' = put mem phys (readable buf src size.toNat ++
        if size.toNat % span = 0 then [] else List.replicate padding.toNat env.paddingByte) := by
  have hsplit := Nat.div_add_mod' size.toNat span
  have hdone : size.toNat - size.toNat % span = size.toNat / span * span := by omega
  unfold Surroundings.copyFromUserToPhyaddr at h
  rw [hmode, if_neg (by decide)] at h
  dsimp only at h
  rw [hdone] at h
  split at h
  · rename_i hfail
    exact absurd (congrArg Prod.snd (Option.some.inj h)) hfail
  · rename_i hwhole
    obtain ⟨hlen, hfirst⟩ := copyWindows_ok hwhole
    rw [hfirst] at h
    split at h
    · rename_i hzero
      obtain ⟨rfl, -⟩ := Prod.mk.inj (Option.some.inj h)
      have hsize : size.toNat / span * span = size.toNat := by omega
      rw [hsize] at hlen
      rw [if_pos hzero, List.append_nil, hsize]
      exact ⟨hlen, rfl⟩
    · rename_i hrest
      split at h
      · split at h
        · split at h
          · exact absurd (Prod.mk.inj (Option.some.inj h)).2 (by decide)
          · rename_i hlast
            obtain ⟨hlen', hsecond⟩ := amlCopyFromUser_ok hlast
            obtain ⟨rfl, -⟩ := Prod.mk.inj (Option.some.inj h)
            have hbytes := readable_add (n := size.toNat % span) hlen
            rw [hsplit] at hbytes
            refine ⟨by rw [hbytes, List.length_append, hlen, hlen', hsplit], ?_⟩
            rw [if_neg hrest, hbytes, hsecond, put_behind _ _ _ (by rw [hlen']),
              put_behind _ _ _ (by rw [hlen]), List.append_assoc]
        · exact nomatch h
      · exact absurd (Prod.mk.inj (Option.some.inj h)).2 (by decide)

theorem mapped_ok (mem : BlockMemory) (virts phys : Int) {size : UInt32} (padding : UInt32)
    (hmode : env.isMapped = true)
    (hlen : (readable buf src size.toNat).length = size.toNat) :
    env.copyFromUserToPhyaddr mem virts buf src size phys padding =
      some (put mem virts (readable buf src size.toNat ++
        List.replicate padding.toNat env.paddingByte), 0) := by
  unfold Surroundings.copyFromUserToPhyaddr
  rw [if_pos hmode, amlCopyFromUser_full mem virts hlen, if_neg (not_not.mpr rfl),
    put_behind mem virts _ (by rw [hlen])]

/-- The windows that a copy asks for are mapped, and the length of the last one does not overflow. -/
structure WindowsMap (env : Surroundings) (phys : Int) (size padding : Nat) : Prop where
  whole : ∀ i < size / span, env.vmap (phys + (i * span : Nat)) span = true
  rest : size % span ≠ 0 → size % span + padding < 2 ^ 32 ∧
    env.vmap (phys + (size / span * span : Nat)) (size % span + padding) = true

theorem span_pos : 0 < span := by
  unfold span
  decide

theorem span_lt : span < 2 ^ 32 := by
  unfold span
  decide

/-- The first window and the others. -/
theorem windows_succ {count : Nat} :
    (∀ i < count + 1, env.vmap (phys + (i * span : Nat)) span = true) ↔
      env.vmap phys span = true ∧
        ∀ i < count, env.vmap (phys + span + (i * span : Nat)) span = true := by
  have hnext (i : Nat) : phys + ((i + 1) * span : Nat) = phys + span + (i * span : Nat) := by
    rw [Nat.succ_mul, Int.natCast_add]
    omega
  have hzero : phys + (0 * span : Nat) = phys := by
    rw [Nat.zero_mul]
    exact Int.add_zero phys
  constructor
  · intro h
    refine ⟨hzero ▸ h 0 (Nat.succ_pos count), fun i hi => ?_⟩
    rw [← hnext]
    exact h (i + 1) (Nat.succ_lt_succ hi)
  · rintro ⟨hfirst, hrest⟩ i hi
    cases i with
    | zero =>
      rw [hzero]
      exact hfirst
    | succ i =>
      rw [hnext]
      exact hrest i (Nat.lt_of_succ_lt_succ hi)

theorem copyWindows_full {count : Nat}
    (hmap : ∀ i < count, env.vmap (phys + (i * span : Nat)) span = true)
    (hlen : (readable buf src (count * span)).length = count * span) :
    env.copyWindows buf src phys count mem =
      (put mem phys (readable buf src (count * span)), 0) := by
  induction count generalizing src phys mem with
  | zero => rw [Nat.zero_mul, readable, put_nil, Surroundings.copyWindows]
  | succ count ih =>
    obtain ⟨hvmap, hnext⟩ := windows_succ.mp hmap
    have hmul : (count + 1) * span = span + count * span := by rw [Nat.succ_mul, Nat.add_comm]
    rw [hmul] at hlen ⊢
    obtain ⟨hfirst, hrest, hbytes⟩ := readable_split hlen
    rw [Surroundings.copyWindows, if_pos hvmap, amlCopyFromUser_full mem phys hfirst,
      if_neg (not_not.mpr rfl), hbytes, ← put_behind mem phys _ (by rw [hfirst])]
    exact ih hnext hrest

/-- A window that cannot be mapped keeps its bytes. -/
theorem copyWindows_blocked (mem : BlockMemory) {count : Nat}
    (hmap : ¬ ∀ i < count, env.vmap (phys + (i * span : Nat)) span = true)
    (hlen : (readable buf src (count * span)).length = count * span) :
    ∃ mem', env.copyWindows buf src phys count mem = (mem', -1) ∧
      (∃ k < count * span, mem' (phys + k) = mem (phys + k)) ∧
      ∀ i, i < phys ∨ phys + (count * span : Nat) ≤ i → mem' i = mem i := by
  induction count generalizing src phys mem with
  | zero => exact absurd (fun i hi => absurd hi (Nat.not_lt_zero i)) hmap
  | succ count ih =>
    have hspan := span_pos
    have hmul : (count + 1) * span = span + count * span := by rw [Nat.succ_mul, Nat.add_comm]
    rw [hmul] at hlen ⊢
    by_cases hvmap : env.vmap phys span = true
    · have hnext := fun hrest => hmap (windows_succ.mpr ⟨hvmap, hrest⟩)
      obtain ⟨hfirst, hrest, -⟩ := readable_split hlen
      obtain ⟨mem', hcopy, ⟨k, hk, hold⟩, hother⟩ :=
        @ih (src + span) (phys + span) (put mem phys (readable buf src span)) hnext hrest
      have houtside : ∀ i, i < phys ∨ phys + span ≤ i →
          put mem phys (readable buf src span) i = mem i := by
        rintro i (hi | hi)
        · exact put_of_lt _ _ _ hi
        · exact put_of_ge _ _ _ (by rw [hfirst]; exact hi)
      refine ⟨mem', ?_, ⟨span + k, by omega, ?_⟩, fun i hi => ?_⟩
      · rw [Surroundings.copyWindows, if_pos hvmap, amlCopyFromUser_full mem phys hfirst,
          if_neg (not_not.mpr rfl)]
        exact hcopy
      · rw [houtside _ (by omega)] at hold
        rw [Int.natCast_add, ← Int.add_assoc]
        exact hold
      · rw [hother i (by omega), houtside i (by omega)]
    · have hstop : env.copyWindows buf src phys (count + 1) mem = (mem, -1) := by
        rw [Surroundings.copyWindows, if_neg hvmap]
      exact ⟨mem, hstop, ⟨0, by omega, rfl⟩, fun _ _ => rfl⟩

theorem unmapped_full (mem : BlockMemory) (virts : Int) {size padding : UInt32}
    (hmode : env.isMapped = false) (hmap : WindowsMap env phys size.toNat padding.toNat)
    (hlen : (readable buf src size.toNat).length = size.toNat) :
    env.copyFromUserToPhyaddr mem virts buf src size phys padding =
      some (put mem phys (readable buf src size.toNat ++
        if size.toNat % span = 0 then [] else List.replicate padding.toNat env.paddingByte), 0) := by
  have hsplit := Nat.div_add_mod' size.toNat span
  have hdone : size.toNat - size.toNat % span = size.toNat / span * span := by omega
  rw [← hsplit] at hlen
  obtain ⟨hwhole, hrest, hbytes⟩ := readable_split hlen
  rw [hsplit] at hbytes
  unfold Surroundings.copyFromUserToPhyaddr
  dsimp only
  rw [hmode, if_neg (by decide), hdone, copyWindows_full hmap.whole hwhole]
  by_cases hzero : size.toNat % span = 0
  · have hsize : size.toNat / span * span = size.toNat := by omega
    rw [if_pos hzero, if_pos hzero, List.append_nil, hsize]
    rfl
  · obtain ⟨hsum, hvmap⟩ := hmap.rest hzero
    rw [if_neg hzero, if_neg hzero, Nat.mod_eq_of_lt hsum, if_pos hvmap, if_pos hsum,
      amlCopyFromUser_full _ _ hrest, if_neg (not_not.mpr rfl), hbytes, List.append_assoc,
      ← put_behind mem phys _ (by rw [hwhole]), ← put_behind _ _ _ (by rw [hrest])]
    rfl

/-- A copy without padding, of which something cannot be mapped, leaves a byte as it was. -/
theorem unmapped_blocked (mem : BlockMemory) (virts : Int) {size : UInt32}
    (hmode : env.isMapped = false) (hmap : ¬ WindowsMap env phys size.toNat 0)
    (hlen : (readable buf src size.toNat).length = size.toNat) :
    ∃ mem' e, env.copyFromUserToPhyaddr mem virts buf src size phys 0 = some (mem', e) ∧
      (∃ k < size.toNat, mem' (phys + k) = mem (phys + k)) ∧
      ∀ i, i < phys ∨ phys + size.toNat ≤ i → mem' i = mem i := by
  have hsplit := Nat.div_add_mod' size.toNat span
  have hdone : size.toNat - size.toNat % span = size.toNat / span * span := by omega
  have hlt := Nat.mod_lt size.toNat span_pos
  have hspan := span_lt
  rw [← hsplit] at hlen
  obtain ⟨hwhole, -, -⟩ := readable_split hlen
  unfold Surroundings.copyFromUserToPhyaddr
  dsimp only
  rw [hmode, if_neg (by decide), hdone]
  by_cases hall : ∀ i < size.toNat / span, env.vmap (phys + (i * span : Nat)) span = true
  · have hrest : ¬ (size.toNat % span ≠ 0 → size.toNat % span + 0 < 2 ^ 32 ∧
        env.vmap (phys + (size.toNat / span * span : Nat)) (size.toNat % span + 0) = true) :=
      fun hrest => hmap ⟨hall, hrest⟩
    obtain ⟨hzero, hnot⟩ := Classical.not_imp.mp hrest
    have hvmap : ¬ env.vmap (phys + (size.toNat / span * span : Nat))
        ((size.toNat % span + (0 : UInt32).toNat) % 2 ^ 32) = true := by
      refine fun hv => hnot ⟨by omega, ?_⟩
      rw [Nat.mod_eq_of_lt (show size.toNat % span + (0 : UInt32).toNat < 2 ^ 32 from
        Nat.lt_trans hlt hspan)] at hv
      exact hv
    rw [copyWindows_full hall hwhole]
    rw [if_neg hzero, if_neg hvmap]
    refine ⟨_, _, rfl, ⟨size.toNat / span * span, by omega, ?_⟩, ?_⟩
    · exact put_of_ge _ _ _ (by rw [hwhole])
    · rintro i (hi | hi)
      · exact put_of_lt _ _ _ hi
      · exact put_of_ge _ _ _ (by rw [hwhole]; omega)
  · obtain ⟨mem', hcopy, ⟨k, hk, hold⟩, hother⟩ := copyWindows_blocked mem hall hwhole
    rw [hcopy, if_pos (show (-1 : Int) ≠ 0 by decide)]
    exact ⟨mem', -1, rfl, ⟨k, by omega, hold⟩, fun i hi => hother i (by omega)⟩

end Copies

/-- The copy is the one that memory which is mapped would get: the bytes of the frame, and the
padding behind them. -/
structure CopiedAsMapped (env : Surroundings) (mem mem' : BlockMemory) (buf : UserBuffer)
    (src : Nat) (size : UInt32) (phys : Int) (padding : UInt32) : Prop where
  mapped : { env with isMapped := true }.copyFromUserToPhyaddr mem phys buf src size phys padding =
    some (mem', 0)
  frame : ∀ k < size.toNat, some (mem' (phys + k)) = buf (src + k)
  padding : ∀ k < padding.toNat, mem' (phys + size.toNat + k) = env.paddingByte

/-- A copy in windows that succeeds is that of mapped memory exactly when there is a rest behind the
windows, with which the padding is set, or the padding was there before. -/
theorem windows_as_mapped_iff (env : Surroundings) (virts : Int) {mem mem' : BlockMemory}
    {buf : UserBuffer} {src : Nat} {size padding : UInt32} {phys : Int}
    (h : { env with isMapped := false }.copyFromUserToPhyaddr mem virts buf src size phys padding =
      some (mem', 0)) :
    CopiedAsMapped env mem mem' buf src size phys padding ↔
      size.toNat % span ≠ 0 ∨
        ∀ k < padding.toNat, mem (phys + size.toNat + k) = env.paddingByte := by
  obtain ⟨hlen, hmem⟩ := unmapped_ok rfl h
  have hmapped : { env with isMapped := true }.copyFromUserToPhyaddr mem phys buf src size phys
      padding = some (put mem phys (readable buf src size.toNat ++
        List.replicate padding.toNat env.paddingByte), 0) := mapped_ok mem phys phys padding rfl hlen
  have hbyte : { env with isMapped := false }.paddingByte = env.paddingByte := rfl
  rw [hbyte] at hmem
  have hlong : (readable buf src size.toNat ++
      List.replicate padding.toNat env.paddingByte).length = size.toNat + padding.toNat := by
    rw [List.length_append, hlen, List.length_replicate]
  constructor
  · rintro ⟨-, -, hpadding⟩
    by_cases hrest : size.toNat % span = 0
    · refine .inr fun k hk => ?_
      rw [← hpadding k hk, hmem, if_pos hrest, List.append_nil, put_of_ge _ _ _ (by rw [hlen]; omega)]
    · exact .inl hrest
  · intro hcond
    have hsame : mem' = put mem phys (readable buf src size.toNat ++
        List.replicate padding.toNat env.paddingByte) := by
      rcases hcond with hrest | hfilled
      · rw [hmem, if_neg hrest]
      · by_cases hrest : size.toNat % span = 0
        · rw [hmem, if_pos hrest, List.append_nil, ← put_behind mem phys _ (by rw [hlen])]
          refine (put_same _ _ _ fun k hk => ?_).symm
          rw [List.length_replicate] at hk
          rw [put_of_ge _ _ _ (by rw [hlen]; omega), hfilled k hk, List.getElem_replicate]
        · rw [hmem, if_neg hrest]
    refine ⟨hmapped.trans (by rw [hsame]), fun k hk => ?_, fun k hk => ?_⟩
    · rw [hsame, put_get _ _ _ (by omega), List.getElem_append_left (by omega)]
      exact (readable_get (by omega)).symm
    · have haddr : phys + size.toNat + k = phys + ((size.toNat + k : Nat) : Int) := by omega
      rw [hsame, haddr, put_get _ _ _ (by omega), List.getElem_append_right (by omega),
        List.getElem_replicate]

/-- Memory that can be mapped everywhere, piece by piece. -/
def mappable : Surroundings := { format := .other, isMapped := false, vmap := fun _ _ => true }

theorem windowsMap_mappable (phys : Int) {size padding : Nat} (h : size % span + padding < 2 ^ 32) :
    WindowsMap mappable phys size padding :=
  ⟨fun _ _ => rfl, fun _ => ⟨h, rfl⟩⟩

def ones : UserBuffer := fun _ => some 1

theorem readable_ones (src n : Nat) : (readable ones src n).length = n :=
  readable_length fun _ _ => rfl

theorem windows_as_mapped_iff_small :
    CopiedAsMapped mappable (fun _ => 7) (put (fun _ => 7) 0 [1, 1, 1, 0, 0]) ones 0 3 0 2 ↔
      (3 : UInt32).toNat % span ≠ 0 ∨
        ∀ k < (2 : UInt32).toNat, (7 : UInt8) = mappable.paddingByte := by
  have hrest : (3 : UInt32).toNat % span ≠ 0 := by
    unfold span
    decide
  have hmap : WindowsMap mappable 0 (3 : UInt32).toNat (2 : UInt32).toNat :=
    windowsMap_mappable 0 (by unfold span; decide)
  have hcopy := unmapped_full (fun _ => 7) 0 rfl hmap (readable_ones 0 _)
  rw [if_neg hrest] at hcopy
  exact windows_as_mapped_iff mappable 0 hcopy

/-- A frame of one window: its padding is not set. -/
theorem whole_window_unpadded :
    ¬ ∀ (env : Surroundings) (virts : Int) (mem mem' : BlockMemory) (buf : UserBuffer) (src : Nat)
      (size padding : UInt32) (phys : Int),
      { env with isMapped := false }.copyFromUserToPhyaddr mem virts buf src size phys padding =
          some (mem', 0) →
        CopiedAsMapped env mem mem' buf src size phys padding := by
  intro hall
  have hwhole : (1048576 : UInt32).toNat % span = 0 := by
    unfold span
    decide
  have hmap : WindowsMap mappable 0 (1048576 : UInt32).toNat (64 : UInt32).toNat :=
    windowsMap_mappable 0 (by rw [hwhole]; decide)
  have hcopy := unmapped_full (fun _ => 7) 0 rfl hmap (readable_ones 0 _)
  rw [if_pos hwhole, List.append_nil] at hcopy
  have hbyte := (hall mappable 0 _ _ ones 0 1048576 64 0 hcopy).padding 0 (by decide)
  rw [put_of_ge _ _ _ (by rw [readable_ones]; omega)] at hbyte
  exact absurd hbyte (by decide)

section Ring
variable {env : Surroundings} {mem mem' : BlockMemory} {chunk : VframeChunk} {buf : UserBuffer}
  {count : UInt64} {block : VframeBlock}

/-- The block shows the frame from its write pointer on, round its end, and zeros behind it; no
other position changed. -/
structure RingFilled (mem mem' : BlockMemory) (chunk : VframeChunk) (buf : UserBuffer)
    (count : UInt64) (block : VframeBlock) : Prop where
  frame : ∀ i < count.toNat,
    some (mem' ((block.wp.toNat + i) % block.size.toNat : Nat)) = buf i
  padding : ∀ i < chunk.paddingSize.toNat,
    mem' ((block.wp.toNat + count.toNat + i) % block.size.toNat : Nat) = 0
  other : ∀ i : Int, (∀ k < count.toNat + chunk.paddingSize.toNat,
    i ≠ ((block.wp.toNat + k) % block.size.toNat : Nat)) → mem' i = mem i

/-- Where the zeros of the padding start, and how many lie before the end of the block. -/
def paddingLen (chunk : VframeChunk) (count : UInt64) (block : VframeBlock) : Nat :=
  min (block.size.toNat - (block.wp.toNat + count.toNat) % block.size.toNat)
    chunk.paddingSize.toNat

/-- In memory that is mapped, neither the frame nor its end wraps. Otherwise the position behind the
frame is a 32-bit number, and all the pieces can be mapped. -/
def FillFits (env : Surroundings) (chunk : VframeChunk) (count : UInt64) (block : VframeBlock) :
    Prop :=
  if env.isMapped then
    block.wp.toNat + count.toNat < block.size.toNat ∨
      (block.wp.toNat + count.toNat = block.size.toNat ∧ chunk.paddingSize = 0)
  else
    (block.wp.toNat + count.toNat < 2 ^ 32 ∨ chunk.paddingSize = 0) ∧
      WindowsMap env block.wp.toNat (min (block.size.toNat - block.wp.toNat) count.toNat) 0 ∧
      WindowsMap env 0 (count.toNat - (block.size.toNat - block.wp.toNat)) 0 ∧
      (paddingLen chunk count block ≠ 0 →
        env.vmap ((block.wp.toNat + count.toNat) % block.size.toNat : Nat)
          (paddingLen chunk count block) = true) ∧
      (chunk.paddingSize.toNat - paddingLen chunk count block ≠ 0 →
        env.vmap 0 (chunk.paddingSize.toNat - paddingLen chunk count block) = true)

theorem ringFilled_of_putRing (hwp : block.wp < block.size)
    (hroom : count.toNat + chunk.paddingSize.toNat < block.size.toNat)
    (hlen : (readable buf 0 count.toNat).length = count.toNat) :
    RingFilled mem (putRing (putRing mem 0 block.size.toNat block.wp.toNat
        (readable buf 0 count.toNat)) 0 block.size.toNat
        ((block.wp.toNat + count.toNat) % block.size.toNat)
        (List.replicate chunk.paddingSize.toNat 0)) chunk buf count block := by
  have hpos : block.wp.toNat < block.size.toNat := UInt32.lt_iff_toNat_lt.mp hwp
  have hend := Nat.mod_lt (block.wp.toNat + count.toNat) (Nat.lt_of_le_of_lt (Nat.zero_le _) hpos)
  have hzeros : (List.replicate chunk.paddingSize.toNat (0 : UInt8)).length =
      chunk.paddingSize.toNat := List.length_replicate
  have hbehind (i : Nat) : ((block.wp.toNat + count.toNat) % block.size.toNat + i) %
      block.size.toNat = (block.wp.toNat + (count.toNat + i)) % block.size.toNat := by
    rw [Nat.mod_add_mod, Nat.add_assoc]
  constructor
  · intro i hi
    have hi' : i < (readable buf 0 count.toNat).length := by omega
    have hread := readable_get hi'
    rw [Nat.zero_add] at hread
    rw [putRing_other _ _ _ hend (by omega), hread]
    · have hget := putRing_get mem 0 (readable buf 0 count.toNat) hpos (by omega) hi'
      rw [Int.zero_add] at hget
      rw [hget]
    · intro k hk heq
      rw [hzeros] at hk
      rw [hbehind, Int.zero_add] at heq
      have := ring_inj (by omega) (by omega) (Int.ofNat.inj heq)
      omega
  · intro i hi
    have hi' : i < (List.replicate chunk.paddingSize.toNat (0 : UInt8)).length := by omega
    have hget := putRing_get (putRing mem 0 block.size.toNat block.wp.toNat
      (readable buf 0 count.toNat)) 0 _ hend (by omega) hi'
    rw [hbehind, Int.zero_add, List.getElem_replicate, ← Nat.add_assoc] at hget
    exact hget
  · intro i hi
    rw [putRing_other _ _ _ hend (by omega), putRing_other _ _ _ hpos (by omega)]
    · intro k hk
      rw [Int.zero_add]
      exact hi k (by omega)
    · intro k hk
      rw [hbehind, Int.zero_add]
      exact hi _ (by omega)

theorem clear_eq_some {p phys : Int} {len : UInt32} :
    env.clear mem p phys len = some mem' ↔
      (env.isMapped = false → len.toNat ≠ 0 → env.vmap phys len.toNat = true) ∧
        mem' = put mem (if env.isMapped then p else phys) (List.replicate len.toNat 0) := by
  unfold Surroundings.clear
  cases hmode : env.isMapped with
  | true =>
    rw [if_pos rfl, if_pos rfl]
    exact ⟨fun h => ⟨nofun, (Option.some.inj h).symm⟩, fun h => congrArg some h.2.symm⟩
  | false =>
    rw [if_neg Bool.false_ne_true, if_neg Bool.false_ne_true]
    have hzero : len = 0 ↔ len.toNat = 0 := UInt32.toNat_inj.symm
    by_cases hmap : len = 0 ∨ env.vmap phys len.toNat = true
    · rw [if_pos hmap]
      refine ⟨fun h => ⟨fun _ hne => hmap.resolve_left (mt hzero.mp hne), ?_⟩, fun h => ?_⟩
      · exact (Option.some.inj h).symm
      · exact congrArg some h.2.symm
    · rw [if_neg hmap]
      obtain ⟨hne, hnot⟩ := not_or.mp hmap
      exact ⟨nofun, fun h => absurd (h.1 rfl (mt hzero.mpr hne)) hnot⟩

theorem frameEnd_toNat (hwp : block.wp < block.size) (hcount : count.toNat < block.size.toNat) :
    (Surroundings.frameEnd block count).toNat =
      if block.wp.toNat + count.toNat < 2 ^ 32 then
        (block.wp.toNat + count.toNat) % block.size.toNat
      else block.wp.toNat + count.toNat - 2 ^ 32 := by
  have hpos : block.wp.toNat < block.size.toNat := UInt32.lt_iff_toNat_lt.mp hwp
  have hsize := block.size.toNat_lt
  have hword : (block.wp.toUInt64 + count).toUInt32.toNat =
      (block.wp.toNat + count.toNat) % 2 ^ 32 := by
    rw [UInt64.toNat_toUInt32, UInt64.toNat_add, UInt32.toNat_toUInt64]
    omega
  unfold Surroundings.frameEnd
  dsimp only
  by_cases hover : block.wp.toNat + count.toNat < 2 ^ 32
  · rw [Nat.mod_eq_of_lt hover] at hword
    rw [if_pos hover]
    split
    · rename_i hge
      rw [UInt32.toNat_sub_of_le _ _ hge, hword]
      have hge := UInt32.le_iff_toNat_le.mp hge
      rw [hword] at hge
      exact (ring_wrap hge (by omega)).symm
    · rename_i hnot
      have hlt := UInt32.lt_iff_toNat_lt.mp (UInt32.not_le.mp hnot)
      rw [hword] at hlt ⊢
      exact (Nat.mod_eq_of_lt hlt).symm
  · have hwrap : (block.wp.toNat + count.toNat) % 2 ^ 32 = block.wp.toNat + count.toNat - 2 ^ 32 :=
      ring_wrap (by omega) (by omega)
    rw [hwrap] at hword
    rw [if_neg hover, if_neg, hword]
    intro hge
    have hge := UInt32.le_iff_toNat_le.mp hge
    omega

theorem frameEnd_lt (hwp : block.wp < block.size) (hcount : count.toNat < block.size.toNat) :
    (Surroundings.frameEnd block count).toNat < block.size.toNat := by
  have hpos : block.wp.toNat < block.size.toNat := UInt32.lt_iff_toNat_lt.mp hwp
  have hsize := block.size.toNat_lt
  rw [frameEnd_toNat hwp hcount]
  split
  · exact Nat.mod_lt _ (by omega)
  · omega

/-- The padding is cleared in two pieces, the second of them at the start of the block. -/
theorem clearPadding_eq_some (hwp : block.wp < block.size)
    (hcount : count.toNat < block.size.toNat) {e len : Nat}
    (he : e = (Surroundings.frameEnd block count).toNat)
    (hlen : len = min (block.size.toNat - e) chunk.paddingSize.toNat) :
    env.clearPadding mem chunk count block = some mem' ↔
      (env.isMapped = false → (len ≠ 0 → env.vmap e len = true) ∧
        (chunk.paddingSize.toNat - len ≠ 0 →
          env.vmap 0 (chunk.paddingSize.toNat - len) = true)) ∧
      mem' = put (put mem (if env.isMapped then (block.wp.toNat + count.toNat : Int) else e)
        (List.replicate len 0)) 0 (List.replicate (chunk.paddingSize.toNat - len) 0) := by
  have hlt := frameEnd_lt hwp hcount
  have hfirst : (min32 (block.size - Surroundings.frameEnd block count) chunk.paddingSize).toNat =
      len := by
    rw [min32_toNat, UInt32.toNat_sub_of_le _ _ (UInt32.le_iff_toNat_le.mpr (Nat.le_of_lt hlt)),
      hlen, he]
  have hle : len ≤ chunk.paddingSize.toNat := hlen ▸ Nat.min_le_right _ _
  have hmore : chunk.paddingSize >
      min32 (block.size - Surroundings.frameEnd block count) chunk.paddingSize ↔
        len < chunk.paddingSize.toNat := by
    rw [← hfirst]
    exact UInt32.lt_iff_toNat_lt
  unfold Surroundings.clearPadding
  simp only [Option.bind_eq_bind, Option.bind_eq_some_iff, clear_eq_some, hfirst, ← he, hmore]
  by_cases hrest : len < chunk.paddingSize.toNat
  · have hsub : (chunk.paddingSize -
        min32 (block.size - Surroundings.frameEnd block count) chunk.paddingSize).toNat =
          chunk.paddingSize.toNat - len := by
      rw [UInt32.toNat_sub_of_le _ _ (UInt32.le_of_lt (hmore.mpr hrest)), hfirst]
    simp only [if_pos hrest, clear_eq_some, hsub, ite_self]
    constructor
    · rintro ⟨_, ⟨hmap, rfl⟩, hmap', rfl⟩
      exact ⟨fun hmode => ⟨hmap hmode, hmap' hmode⟩, rfl⟩
    · rintro ⟨hmap, rfl⟩
      exact ⟨_, ⟨fun hmode => (hmap hmode).1, rfl⟩, fun hmode => (hmap hmode).2, rfl⟩
  · have hnone : chunk.paddingSize.toNat - len = 0 := by omega
    simp only [if_neg hrest, hnone, List.replicate_zero, put_nil, Option.some.injEq]
    constructor
    · rintro ⟨_, ⟨hmap, rfl⟩, rfl⟩
      exact ⟨fun hmode => ⟨hmap hmode, fun hne => absurd rfl hne⟩, rfl⟩
    · rintro ⟨hmap, rfl⟩
      exact ⟨_, ⟨fun hmode => (hmap hmode).1, rfl⟩, rfl⟩

theorem firstLen_toNat (hwp : block.wp < block.size) :
    (Surroundings.firstLen block count).toNat =
      min (block.size.toNat - block.wp.toNat) count.toNat := by
  have hroom : (block.size - block.wp).toUInt64.toNat = block.size.toNat - block.wp.toNat := by
    rw [UInt32.toNat_toUInt64, UInt32.toNat_sub_of_le _ _ (UInt32.le_of_lt hwp)]
  unfold Surroundings.firstLen
  dsimp only
  split
  · rename_i hlt
    have hlt := UInt64.lt_iff_toNat_lt.mp hlt
    omega
  · rename_i hnot
    have hle := UInt64.le_iff_toNat_le.mp (UInt64.not_lt.mp hnot)
    omega

/-- The pieces of a frame: the lengths of the two copies, and their bytes. -/
structure Pieces (buf : UserBuffer) (count : UInt64) (block : VframeBlock) (first rest : Nat) :
    Prop where
  first_eq : first = min (block.size.toNat - block.wp.toNat) count.toNat
  rest_eq : rest = count.toNat - (block.size.toNat - block.wp.toNat)
  len : (Surroundings.firstLen block count).toNat = first
  len32 : (Surroundings.firstLen block count).toUInt32.toNat = first
  rest32 : (count - Surroundings.firstLen block count).toUInt32.toNat = rest
  more : count > Surroundings.firstLen block count ↔ 0 < rest
  sum : first + rest = count.toNat
  readFirst : (readable buf 0 first).length = first
  readRest : (readable buf first rest).length = rest
  bytes : readable buf 0 count.toNat = readable buf 0 first ++ readable buf first rest

theorem pieces (hwp : block.wp < block.size) (hcount : count.toNat < block.size.toNat)
    (hread : (readable buf 0 count.toNat).length = count.toNat) :
    ∃ first rest, Pieces buf count block first rest := by
  have hlen : (Surroundings.firstLen block count).toNat =
      min (block.size.toNat - block.wp.toNat) count.toNat := firstLen_toNat hwp
  have hpos : block.wp.toNat < block.size.toNat := UInt32.lt_iff_toNat_lt.mp hwp
  have hsize := block.size.toNat_lt
  have hle : Surroundings.firstLen block count ≤ count := by
    rw [UInt64.le_iff_toNat_le]
    omega
  have hsub : (count - Surroundings.firstLen block count).toNat =
      count.toNat - (block.size.toNat - block.wp.toNat) := by
    rw [UInt64.toNat_sub_of_le _ _ hle, hlen]
    omega
  have hsum : min (block.size.toNat - block.wp.toNat) count.toNat +
      (count.toNat - (block.size.toNat - block.wp.toNat)) = count.toNat := by omega
  have hsplit := hread
  rw [← hsum] at hsplit
  obtain ⟨hfirst, hrest, hbytes⟩ := readable_split hsplit
  rw [hsum] at hbytes
  rw [Nat.zero_add] at hrest hbytes
  refine ⟨_, _, rfl, rfl, hlen, ?_, ?_, ?_, hsum, hfirst, hrest, hbytes⟩
  · rw [UInt64.toNat_toUInt32, hlen, Nat.mod_eq_of_lt (by omega)]
  · rw [UInt64.toNat_toUInt32, hsub, Nat.mod_eq_of_lt (by omega)]
  · rw [gt_iff_lt, UInt64.lt_iff_toNat_lt, hlen]
    omega

/-- In memory that is mapped the second piece follows the first, over the end of the block. -/
theorem fillCopies_mapped (mem : BlockMemory) (chunk : VframeChunk) (hmode : env.isMapped = true)
    (htype : block.type = .frameCircular) {first rest : Nat} (hp : Pieces buf count block first rest) :
    ∃ codes, env.fillCopies mem chunk buf count block =
      some (put mem block.wp.toNat (readable buf 0 count.toNat), codes) := by
  have hfirst := hp.readFirst
  have hrest := hp.readRest
  rw [← hp.len32] at hfirst
  rw [← hp.rest32] at hrest
  have hzero : List.replicate (0 : UInt32).toNat env.paddingByte = [] := rfl
  unfold Surroundings.fillCopies
  dsimp only
  rw [htype]
  dsimp only
  rw [mapped_ok mem _ _ 0 hmode hfirst, hzero, List.append_nil]
  dsimp only [Option.bind_eq_bind, Option.bind_some]
  split
  · rw [hp.len, mapped_ok _ _ _ 0 hmode hrest, hzero, List.append_nil, hp.len32, hp.rest32,
      put_behind _ _ _ (by rw [hp.readFirst]), ← hp.bytes]
    exact ⟨_, rfl⟩
  · rename_i hnone
    have hnone : rest = 0 := Nat.eq_zero_of_not_pos (mt hp.more.mpr hnone)
    rw [hp.len32, hp.bytes, hnone, readable, List.append_nil]
    exact ⟨_, rfl⟩

/-- In windows the second piece goes to the start of the block. -/
theorem fillCopies_unmapped (mem : BlockMemory) (chunk : VframeChunk)
    (hmode : env.isMapped = false) (htype : block.type = .frameCircular) {first rest : Nat} (hp : Pieces buf count block first rest)
    (hmapFirst : WindowsMap env block.wp.toNat first 0) (hmapRest : WindowsMap env 0 rest 0) :
    ∃ codes, env.fillCopies mem chunk buf count block =
      some (putRing mem 0 block.size.toNat block.wp.toNat (readable buf 0 count.toNat), codes) := by
  have hring : putRing mem 0 block.size.toNat block.wp.toNat (readable buf 0 count.toNat) =
      put (put mem block.wp.toNat (readable buf 0 first)) 0 (readable buf first rest) := by
    rw [putRing, hp.bytes, Int.zero_add]
    by_cases hmore : 0 < rest
    · have hlen : (readable buf 0 first).length = block.size.toNat - block.wp.toNat := by
        rw [hp.readFirst, hp.first_eq]
        have := hp.rest_eq
        omega
      rw [List.take_left' hlen, List.drop_left' hlen]
    · have hnone : rest = 0 := Nat.eq_zero_of_not_pos hmore
      have hlen : (readable buf 0 first).length ≤ block.size.toNat - block.wp.toNat := by
        rw [hp.readFirst, hp.first_eq]
        exact Nat.min_le_left _ _
      rw [hnone, readable, List.append_nil, List.take_of_length_le hlen,
        List.drop_of_length_le hlen]
  rw [hring]
  have hfirst := hp.readFirst
  have hrest := hp.readRest
  rw [← hp.len32] at hfirst hmapFirst
  rw [← hp.rest32] at hrest hmapRest
  have hzero : List.replicate (0 : UInt32).toNat env.paddingByte = [] := rfl
  unfold Surroundings.fillCopies
  dsimp only
  rw [htype]
  dsimp only
  rw [unmapped_full mem _ hmode hmapFirst hfirst, hzero, ite_self, List.append_nil]
  dsimp only [Option.bind_eq_bind, Option.bind_some]
  split
  · rw [hp.len, unmapped_full _ _ hmode hmapRest hrest, hzero, ite_self, List.append_nil, hp.len32,
      hp.rest32]
    exact ⟨_, rfl⟩
  · rename_i hnone
    have hnone : rest = 0 := Nat.eq_zero_of_not_pos (mt hp.more.mpr hnone)
    rw [hp.len32, hnone, readable, put_nil]
    exact ⟨_, rfl⟩

/-- A copy in windows without padding changes nothing else. -/
theorem unmapped_outside (mem : BlockMemory) (phys virts : Int) {src : Nat} {size : UInt32}
    (hmode : env.isMapped = false)
    (hlen : (readable buf src size.toNat).length = size.toNat) :
    ∃ mem' e, env.copyFromUserToPhyaddr mem virts buf src size phys 0 = some (mem', e) ∧
      ∀ i, i < phys ∨ phys + size.toNat ≤ i → mem' i = mem i := by
  by_cases hmap : WindowsMap env phys size.toNat 0
  · have hzero : List.replicate (0 : UInt32).toNat env.paddingByte = [] := rfl
    have hfull : env.copyFromUserToPhyaddr mem virts buf src size phys 0 =
        some (put mem phys (readable buf src size.toNat), 0) := by
      rw [unmapped_full mem virts hmode hmap hlen, hzero, ite_self, List.append_nil]
    refine ⟨_, _, hfull, ?_⟩
    rintro i (hi | hi)
    · exact put_of_lt _ _ _ hi
    · exact put_of_ge _ _ _ (by rw [hlen]; exact hi)
  · obtain ⟨mem', e, hcopy, -, hother⟩ := unmapped_blocked mem virts hmode hmap hlen
    exact ⟨mem', e, hcopy, hother⟩

/-- When a window cannot be mapped, a position of the frame is as it was. -/
theorem fillCopies_blocked (hmode : env.isMapped = false) (htype : block.type = .frameCircular)
    (hwp : block.wp < block.size) (hcount : count.toNat < block.size.toNat)
    {first rest : Nat} (hp : Pieces buf count block first rest)
    (hmap : ¬ (WindowsMap env block.wp.toNat first 0 ∧ WindowsMap env 0 rest 0))
    {mem' : BlockMemory} {codes : List Int}
    (h : env.fillCopies mem chunk buf count block = some (mem', codes)) :
    ∃ i < count.toNat, mem' ((block.wp.toNat + i) % block.size.toNat : Nat) =
      mem ((block.wp.toNat + i) % block.size.toNat : Nat) := by
  have hpos : block.wp.toNat < block.size.toNat := UInt32.lt_iff_toNat_lt.mp hwp
  have hfirst := hp.readFirst
  have hrest := hp.readRest
  have hfirstEq := hp.first_eq
  have hrestEq := hp.rest_eq
  rw [← hp.len32] at hfirst
  rw [← hp.rest32] at hrest
  unfold Surroundings.fillCopies at h
  dsimp only at h
  rw [htype] at h
  dsimp only at h
  by_cases hmapFirst : WindowsMap env block.wp.toNat first 0
  · -- the second piece is not written whole
    have hmapRest : ¬ WindowsMap env 0 rest 0 := fun hrest => hmap ⟨hmapFirst, hrest⟩
    have hmore : 0 < rest := by
      refine Nat.pos_of_ne_zero fun hzero => hmapRest ⟨fun i hi => ?_, fun hne => ?_⟩
      · rw [hzero, Nat.zero_div] at hi
        exact absurd hi (Nat.not_lt_zero i)
      · rw [hzero, Nat.zero_mod] at hne
        exact absurd rfl hne
    have hzero : List.replicate (0 : UInt32).toNat env.paddingByte = [] := rfl
    rw [← hp.len32] at hmapFirst
    rw [← hp.rest32] at hmapRest
    rw [unmapped_full mem _ hmode hmapFirst hfirst, hzero, ite_self, List.append_nil] at h
    dsimp only [Option.bind_eq_bind, Option.bind_some] at h
    obtain ⟨m, e, hcopy, ⟨k, hk, hold⟩, -⟩ :=
      unmapped_blocked (put mem block.wp.toNat (readable buf 0 first))
        (block.wp.toNat + first) hmode hmapRest hrest
    rw [hp.rest32] at hk
    rw [if_pos (hp.more.mpr hmore), hp.len32, hp.len, hcopy, Option.bind_some] at h
    obtain rfl : m = mem' := (Prod.mk.inj (Option.some.inj h)).1
    refine ⟨first + k, by have := hp.sum; omega, ?_⟩
    have hcell : (block.wp.toNat + (first + k)) % block.size.toNat = k := by
      rw [ring_wrap (by omega) (by omega)]
      omega
    rw [Int.zero_add] at hold
    rw [hcell, hold, put_of_lt _ _ _ (by omega)]
  · -- the first piece is not written whole, and the second one goes elsewhere
    rw [← hp.len32] at hmapFirst
    obtain ⟨m, e, hcopy, ⟨k, hk, hold⟩, -⟩ :=
      unmapped_blocked mem block.wp.toNat hmode hmapFirst hfirst
    rw [hp.len32] at hk
    have hsame : mem' (block.wp.toNat + k) = m (block.wp.toNat + k) := by
      rw [hcopy] at h
      dsimp only [Option.bind_eq_bind, Option.bind_some] at h
      split at h
      · obtain ⟨m', e', hcopy', hother⟩ :=
          unmapped_outside m 0 (block.wp.toNat + first) hmode hrest
        rw [hp.len, hcopy', Option.bind_some] at h
        obtain rfl : m' = mem' := (Prod.mk.inj (Option.some.inj h)).1
        rw [hp.rest32] at hother
        exact hother _ (by omega)
      · obtain ⟨rfl, -⟩ := Prod.mk.inj (Option.some.inj h)
        rfl
    refine ⟨k, by have := hp.sum; omega, ?_⟩
    rw [Nat.mod_eq_of_lt (by omega), Int.natCast_add, hsame, hold]

theorem vframeChunkFill_circular (htype : block.type = .frameCircular) {e : Int} :
    env.vframeChunkFill mem chunk buf count block = some (mem', e) ↔
      e = 0 ∧ ∃ m codes, env.fillCopies mem chunk buf count block = some (m, codes) ∧
        env.clearPadding m chunk count block = some mem' := by
  unfold Surroundings.vframeChunkFill
  simp only [if_pos htype]
  constructor
  · intro h
    obtain ⟨⟨m, codes⟩, hcopies, h⟩ := Option.bind_eq_some_iff.mp h
    obtain ⟨m', hclear, h⟩ := Option.map_eq_some_iff.mp h
    obtain ⟨rfl, rfl⟩ := Prod.mk.inj h
    exact ⟨rfl, m, codes, hcopies, hclear⟩
  · rintro ⟨rfl, m, codes, hcopies, hclear⟩
    rw [hcopies, Option.bind_some, hclear, Option.map_some]

/-- Zeros that are written round the end of the block, as two pieces. -/
theorem putRing_zeros (m : BlockMemory) (size e n : Nat) :
    putRing m 0 size e (List.replicate n 0) =
      put (put m e (List.replicate (min (size - e) n) 0)) 0
        (List.replicate (n - min (size - e) n) 0) := by
  have hrest : n - (size - e) = n - min (size - e) n := by omega
  rw [putRing, List.take_replicate, List.drop_replicate, Int.zero_add, hrest]

/-- The fill of a block in circles, where the condition holds. -/
theorem ringFilled_of_fits (htype : block.type = .frameCircular) (hwp : block.wp < block.size)
    (hroom : count.toNat + chunk.paddingSize.toNat < block.size.toNat)
    (hfits : FillFits env chunk count block)
    (hread : (readable buf 0 count.toNat).length = count.toNat) :
    ∃ mem', env.vframeChunkFill mem chunk buf count block = some (mem', 0) ∧
      RingFilled mem mem' chunk buf count block := by
  have hcount : count.toNat < block.size.toNat := by omega
  have hsize := block.size.toNat_lt
  have hend := frameEnd_toNat hwp hcount
  obtain ⟨first, rest, hp⟩ := pieces hwp hcount hread
  refine ⟨_, (vframeChunkFill_circular htype).mpr ⟨rfl, ?_⟩,
    ringFilled_of_putRing hwp hroom hread⟩
  rw [putRing_zeros]
  unfold FillFits at hfits
  by_cases hmode : env.isMapped = true
  · rw [if_pos hmode] at hfits
    obtain ⟨codes, hcopies⟩ := fillCopies_mapped mem chunk hmode htype hp
    refine ⟨_, codes, hcopies, (clearPadding_eq_some hwp hcount rfl rfl).mpr ⟨?_, ?_⟩⟩
    · exact fun hnot => absurd (hmode.symm.trans hnot) (by decide)
    · rw [if_pos hmode, putRing_of_le _ _ _ (by rw [hread]; omega), Int.zero_add, hend,
        if_pos (by omega)]
      rcases hfits with hbelow | ⟨hmeet, hnone⟩
      · rw [Nat.mod_eq_of_lt hbelow, Int.natCast_add]
      · rw [hnone]
        simp only [UInt32.toNat_zero, Nat.min_zero, List.replicate_zero, put_nil]
  · rw [if_neg hmode] at hfits
    have hmode := Bool.eq_false_of_not_eq_true hmode
    obtain ⟨hword, hmapFirst, hmapRest, hmapLen, hmapMore⟩ := hfits
    rw [← hp.first_eq] at hmapFirst
    rw [← hp.rest_eq] at hmapRest
    obtain ⟨codes, hcopies⟩ :=
      fillCopies_unmapped mem chunk hmode htype hp hmapFirst hmapRest
    refine ⟨_, codes, hcopies, (clearPadding_eq_some hwp hcount rfl rfl).mpr ?_⟩
    rw [if_neg (by rw [hmode]; decide), hend]
    rcases hword with hword | hnone
    · rw [if_pos hword]
      exact ⟨fun _ => ⟨hmapLen, hmapMore⟩, rfl⟩
    · rw [hnone]
      simp only [UInt32.toNat_zero, Nat.min_zero, List.replicate_zero, put_nil, Nat.sub_self]
      exact ⟨fun _ => ⟨fun hne => absurd rfl hne, fun hne => absurd rfl hne⟩, trivial⟩

/-- Memory that was never written to, a byte that no copy and no padding writes. -/
def twos : BlockMemory := fun _ => 2

theorem put_zeros (m : BlockMemory) (addr : Int) (n : Nat) (i : Int) :
    put m addr (List.replicate n 0) i = m i ∨ put m addr (List.replicate n 0) i = 0 :=
  (put_old_or_new m addr _ i).imp_right fun hnew => (List.mem_replicate.mp hnew).2

/-- A frame of ones in mapped memory of twos: if the frame or its end wraps, the byte behind the
block changes. -/
theorem mapped_fits_of_filled (hmode : env.isMapped = true)
    (htype : block.type = .frameCircular) (hwp : block.wp < block.size)
    (hroom : count.toNat + chunk.paddingSize.toNat < block.size.toNat)
    (hfill : env.vframeChunkFill twos chunk ones count block = some (mem', 0))
    (hring : RingFilled twos mem' chunk ones count block) :
    block.wp.toNat + count.toNat < block.size.toNat ∨
      (block.wp.toNat + count.toNat = block.size.toNat ∧ chunk.paddingSize = 0) := by
  have hcount : count.toNat < block.size.toNat := by omega
  have hpos : block.wp.toNat < block.size.toNat := UInt32.lt_iff_toNat_lt.mp hwp
  have hsize := block.size.toNat_lt
  have hread := readable_ones 0 count.toNat
  obtain ⟨first, rest, hp⟩ := pieces hwp hcount hread
  obtain ⟨-, m, codes, hcopies, hclear⟩ := (vframeChunkFill_circular htype).mp hfill
  obtain ⟨codes', hcopies'⟩ := fillCopies_mapped twos chunk hmode htype hp
  obtain ⟨rfl, -⟩ := Prod.mk.inj (Option.some.inj (hcopies'.symm.trans hcopies))
  obtain ⟨-, rfl⟩ := (clearPadding_eq_some hwp hcount rfl rfl).mp hclear
  rw [if_pos hmode] at hring
  have hbehind : _ = (2 : UInt8) := hring.other block.size.toNat fun k hk heq => by
    have hlt := Nat.mod_lt (block.wp.toNat + k) (Nat.lt_of_le_of_lt (Nat.zero_le _) hpos)
    have heq := Int.ofNat.inj heq
    omega
  by_contra hnot
  obtain ⟨hge, hmeet⟩ := not_or.mp hnot
  by_cases hover : block.size.toNat < block.wp.toNat + count.toNat
  · -- a byte of the second piece lies there
    have hone : put twos block.wp.toNat (readable ones 0 count.toNat) block.size.toNat = 1 := by
      have hk : block.size.toNat - block.wp.toNat < (readable ones 0 count.toNat).length := by omega
      have hget := put_get twos block.wp.toNat (readable ones 0 count.toNat) hk
      have hbyte := readable_get hk
      have haddr : ((block.wp.toNat : Int) + (block.size.toNat - block.wp.toNat : Nat)) =
          block.size.toNat := by omega
      rw [haddr] at hget
      rw [hget]
      exact (Option.some.inj hbyte).symm
    rcases put_zeros _ 0 _ (block.size.toNat : Int) with hlast | hlast
    · rw [hlast] at hbehind
      rcases put_zeros _ (block.wp.toNat + count.toNat) _ (block.size.toNat : Int) with hmid | hmid
      · rw [hmid, hone] at hbehind
        exact absurd hbehind (by decide)
      · rw [hmid] at hbehind
        exact absurd hbehind (by decide)
    · rw [hlast] at hbehind
      exact absurd hbehind (by decide)
  · -- the padding starts there
    have heq : block.wp.toNat + count.toNat = block.size.toNat := by omega
    have hpad : 0 < chunk.paddingSize.toNat := by
      refine Nat.pos_of_ne_zero fun hzero => hmeet ⟨heq, UInt32.toNat_inj.mp hzero⟩
    have hlen : 0 < min (block.size.toNat - (Surroundings.frameEnd block count).toNat)
        chunk.paddingSize.toNat := by
      have hlt := frameEnd_lt hwp hcount
      omega
    generalize min (block.size.toNat - (Surroundings.frameEnd block count).toNat)
      chunk.paddingSize.toNat = len at hlen hbehind
    have hk : 0 < (List.replicate len (0 : UInt8)).length := by
      rw [List.length_replicate]
      exact hlen
    have hzero := put_get (put twos block.wp.toNat (readable ones 0 count.toNat))
      block.size.toNat (List.replicate len (0 : UInt8)) hk
    rw [List.getElem_replicate, Int.natCast_zero, Int.add_zero] at hzero
    have haddr : (block.wp.toNat : Int) + count.toNat = block.size.toNat := by omega
    rw [haddr] at hbehind
    rcases put_zeros _ 0 _ (block.size.toNat : Int) with hlast | hlast
    · rw [hlast, hzero] at hbehind
      exact absurd hbehind (by decide)
    · rw [hlast] at hbehind
      exact absurd hbehind (by decide)

/-- A frame of ones in windows on memory of twos: a piece that is not written keeps a two, and
padding at a wrong place clears a one. -/
theorem unmapped_fits_of_filled (hmode : env.isMapped = false)
    (htype : block.type = .frameCircular) (hwp : block.wp < block.size)
    (hroom : count.toNat + chunk.paddingSize.toNat < block.size.toNat)
    (hfill : env.vframeChunkFill twos chunk ones count block = some (mem', 0))
    (hring : RingFilled twos mem' chunk ones count block) : FillFits env chunk count block := by
  have hcount : count.toNat < block.size.toNat := by omega
  have hpos : block.wp.toNat < block.size.toNat := UInt32.lt_iff_toNat_lt.mp hwp
  have hsize := block.size.toNat_lt
  have hend := frameEnd_toNat hwp hcount
  obtain ⟨first, rest, hp⟩ := pieces hwp hcount (readable_ones 0 count.toNat)
  obtain ⟨-, m, codes, hcopies, hclear⟩ := (vframeChunkFill_circular htype).mp hfill
  obtain ⟨hmaps, rfl⟩ := (clearPadding_eq_some hwp hcount rfl rfl).mp hclear
  obtain ⟨hmapLen, hmapMore⟩ := hmaps hmode
  rw [if_neg (by rw [hmode]; decide)] at hring
  have hword : block.wp.toNat + count.toNat < 2 ^ 32 ∨ chunk.paddingSize = 0 := by
    by_contra hnot
    obtain ⟨hover, hpad⟩ := not_or.mp hnot
    have hpad : 0 < chunk.paddingSize.toNat :=
      Nat.pos_of_ne_zero fun hzero => hpad (UInt32.toNat_inj.mp hzero)
    rw [if_neg hover] at hend
    rw [hend] at hring
    have hone := hring.frame (block.wp.toNat + count.toNat - 2 ^ 32 + (block.size.toNat -
      block.wp.toNat)) (by omega)
    have hcell : (block.wp.toNat + (block.wp.toNat + count.toNat - 2 ^ 32 + (block.size.toNat -
        block.wp.toNat))) % block.size.toNat = block.wp.toNat + count.toNat - 2 ^ 32 := by
      rw [ring_wrap (by omega) (by omega)]
      omega
    have hlen : 0 < min (block.size.toNat - (block.wp.toNat + count.toNat - 2 ^ 32))
        chunk.paddingSize.toNat := by omega
    rw [hcell] at hone
    generalize min (block.size.toNat - (block.wp.toNat + count.toNat - 2 ^ 32))
      chunk.paddingSize.toNat = len at hlen hone
    have hk : 0 < (List.replicate len (0 : UInt8)).length := by
      rw [List.length_replicate]
      exact hlen
    have hzero := put_get m (block.wp.toNat + count.toNat - 2 ^ 32 : Nat)
      (List.replicate len (0 : UInt8)) hk
    rw [List.getElem_replicate, Int.natCast_zero, Int.add_zero] at hzero
    rcases put_zeros _ 0 _ ((block.wp.toNat + count.toNat - 2 ^ 32 : Nat) : Int) with hlast | hlast
    · rw [hlast, hzero] at hone
      exact absurd (Option.some.inj hone) (by decide)
    · rw [hlast] at hone
      exact absurd (Option.some.inj hone) (by decide)
  have hwindows : WindowsMap env block.wp.toNat first 0 ∧ WindowsMap env 0 rest 0 := by
    by_contra hnot
    obtain ⟨i, hi, hold⟩ := fillCopies_blocked hmode htype hwp hcount hp hnot hcopies
    have hold : m ((block.wp.toNat + i) % block.size.toNat : Nat) = 2 := hold
    have hone : some _ = some (1 : UInt8) := hring.frame i hi
    generalize ((block.wp.toNat + i) % block.size.toNat : Nat) = k at hone hold
    rcases put_zeros _ 0 _ (k : Int) with hlast | hlast
    · rw [hlast] at hone
      rcases put_zeros m _ _ (k : Int) with hmid | hmid
      · rw [hmid, hold] at hone
        exact absurd (Option.some.inj hone) (by decide)
      · rw [hmid] at hone
        exact absurd (Option.some.inj hone) (by decide)
    · rw [hlast] at hone
      exact absurd (Option.some.inj hone) (by decide)
  unfold FillFits
  rw [if_neg (by rw [hmode]; decide), ← hp.first_eq, ← hp.rest_eq]
  refine ⟨hword, hwindows.1, hwindows.2, ?_⟩
  unfold paddingLen
  rcases hword with hword | hnone
  · rw [if_pos hword] at hend
    rw [hend] at hmapLen hmapMore
    exact ⟨hmapLen, hmapMore⟩
  · rw [hnone]
    simp only [UInt32.toNat_zero, Nat.min_zero, Nat.sub_self, ne_eq, not_true, false_implies,
      and_self]

end Ring

/-- For every frame and memory, the fill puts the frame into the ring exactly under the condition. -/
theorem vframeChunkFill_ring_iff (env : Surroundings) (chunk : VframeChunk) {count : UInt64}
    {block : VframeBlock} (htype : block.type = .frameCircular) (hwp : block.wp < block.size)
    (hroom : count.toNat + chunk.paddingSize.toNat < block.size.toNat) :
    (∀ (mem : BlockMemory) (buf : UserBuffer), (∀ i < count.toNat, (buf i).isSome) →
      ∃ mem', env.vframeChunkFill mem chunk buf count block = some (mem', 0) ∧
        RingFilled mem mem' chunk buf count block) ↔ FillFits env chunk count block := by
  constructor
  · intro hall
    obtain ⟨mem', hfill, hring⟩ := hall twos ones fun _ _ => rfl
    by_cases hmode : env.isMapped = true
    · unfold FillFits
      rw [if_pos hmode]
      exact mapped_fits_of_filled hmode htype hwp hroom hfill hring
    · have hmode := Bool.eq_false_of_not_eq_true hmode
      exact unmapped_fits_of_filled hmode htype hwp hroom hfill hring
  · intro hfits mem buf hbytes
    apply ringFilled_of_fits htype hwp hroom hfits
    apply readable_length
    intro k hk
    rw [Nat.zero_add]
    exact hbytes k hk

/-- A block of 4 KiB in circles, written up to its last 100 bytes. -/
def nearlyWritten : VframeBlock :=
  { noBlock with type := .frameCircular, size := 4096, wp := 3996 }

/-- The chunk of a frame with a padding of 64 bytes. -/
def paddedChunk : VframeChunk :=
  { sequence := 0, block := 0, offset := 3996, size := 150, paddingSize := 64, ptsValid := false,
    pts64 := 0 }

theorem vframeChunkFill_ring_iff_wrapped :
    (∀ (mem : BlockMemory) (buf : UserBuffer), (∀ i < (150 : UInt64).toNat, (buf i).isSome) →
      ∃ mem', mappable.vframeChunkFill mem paddedChunk buf 150 nearlyWritten = some (mem', 0) ∧
        RingFilled mem mem' paddedChunk buf 150 nearlyWritten) ↔
      FillFits mappable paddedChunk 150 nearlyWritten :=
  vframeChunkFill_ring_iff mappable paddedChunk rfl (by decide) (by decide)

/-- In memory that is mapped, the wrapped part of a frame is written behind the block. -/
theorem mapped_frame_overruns :
    ¬ ∀ (env : Surroundings) (chunk : VframeChunk) (count : UInt64) (block : VframeBlock),
      block.type = .frameCircular → block.wp < block.size →
      count.toNat + chunk.paddingSize.toNat < block.size.toNat →
        ∀ (mem : BlockMemory) (buf : UserBuffer), (∀ i < count.toNat, (buf i).isSome) →
          ∃ mem', env.vframeChunkFill mem chunk buf count block = some (mem', 0) ∧
            RingFilled mem mem' chunk buf count block := by
  intro hall
  obtain ⟨mem', hfill, hring⟩ := hall { mappable with isMapped := true } paddedChunk 150
    nearlyWritten rfl (by decide) (by decide) twos ones fun _ _ => rfl
  have hfits := mapped_fits_of_filled rfl rfl (by decide) (by decide) hfill hring
  revert hfits
  decide

end MediaModules.FrameInput
