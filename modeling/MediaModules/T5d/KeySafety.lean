import Mathlib.Tactic.Common
import MediaModules.T5d.ChannelOwners

/-!
# What the AES callback reads

The software key of a slot says which kind of data it holds in `is_iv`, and that it holds
any in `used`. `KeyOk` keeps the two in step with the data; it needs that a free clears the
software key, which it does only for a slot whose algorithm is not one of the CSA ones.
-/
namespace MediaModules.T5d

open MediaModules.Demux (Tspacket)
open MediaModules.Lib.Run

/-- A software key in use belongs to a live slot and holds data of the kind it says. -/
structure KeyOk (key : Key) : Prop where
  live : key.swKey.used = true → key.used = true ∧ key.freed = false
  shape : key.swKey.used = true → key.swKey.aesDec = true ∧
    if key.swKey.isIv then
      key.swKey.set = some .aesIv ∧ key.swKey.free = some .aesIv ∧
        ∃ v, key.swKey.data = some (.aesIv v)
    else
      key.swKey.set = some .aesKey ∧ key.swKey.free = some .aesKey ∧
        ∃ v, key.swKey.data = some (.aesKey v)

/-- A slot is freed with its software key cleared and no hardware channel on it. -/
def FreeOk (dev : Device) (k : KeyId) : Prop :=
  ((dev.keys k).algo.isCsa = true → (dev.keys k).swKey.used = false) ∧ ¬ dev.HwReferred k

/-- What a call has to meet so that freed slots stay out of use and no slot is written over: up
to 32 bytes come in for the 16 of a hardware key. -/
def KeysKept (fifos : List AsyncFifo) (dev : Device) : Op → Prop
  | .freeKey k => (dev.keys k).used = true → FreeOk dev k
  | .clearKeys => ∀ k, (dev.keys k).used = true → FreeOk dev k
  | .setKey k _ len => (dev.keys k).used = true → (dev.keys k).algo.isCsa = true → len ≤ 16
  | op => ∀ k, Loaded fifos dev op k → (dev.keys k).freed = false

/-- The calls, with a source that has a stream. -/
def Op.Valid : Op → Prop
  | .allocKey .. | .freeKey .. | .configKey .. | .setKey .. | .clearKeys => True
  | op => op.InRange

/-- The invariant behind the key properties. -/
structure KeysOk (dev : Device) : Prop where
  pointers : Pointers dev
  keys : ∀ k, KeyOk (dev.keys k)
  freed : ∀ k, (dev.keys k).freed = true → ¬ dev.HwReferred k

/-! ## Key slots -/

theorem KeyOk.of_unused {key : Key} (h : key.swKey.used = false) : KeyOk key :=
  ⟨fun hu => absurd hu (by simp [h]), fun hu => absurd hu (by simp [h])⟩

theorem swdmxKeyClear_used (key : SwKey) : (swdmxKeyClear key).used = false := by
  unfold swdmxKeyClear
  split
  · rfl
  · exact Bool.not_eq_true _ ▸ ‹¬ key.used = true›

/-- A free slot holds no data, so its kind may change. -/
theorem KeyOk.alloc {key : Key} (h : KeyOk key) (isIv : Bool) (hu : key.used = false) :
    KeyOk { key with used := true, swKey := { key.swKey with isIv := isIv } } := by
  refine .of_unused ?_
  show key.swKey.used = false
  cases hsw : key.swKey.used with
  | false => rfl
  | true => exact absurd (h.live hsw).1 (by simp [hu])

theorem KeyOk.keyFree {key : Key} (h : key.algo.isCsa = true → key.swKey.used = false) :
    KeyOk (keyFree key) := by
  unfold T5d.keyFree
  split
  · rename_i hcsa
    exact .of_unused (h hcsa)
  · exact .of_unused (swdmxKeyClear_used _)

theorem KeyOk.init {key : Key} (heap : List UInt8) (hu : key.used = true) (user : UserId)
    (algo : KeyAlgo) :
    KeyOk { key with
      user := user, algo := algo, freed := false
      swKey := swdmxAesDecKeyInit heap key.swKey } := by
  refine ⟨fun _ => ⟨hu, rfl⟩, fun _ => ?_⟩
  unfold swdmxAesDecKeyInit
  dsimp only
  split
  · exact ⟨rfl, rfl, rfl, heap, rfl⟩
  · exact ⟨rfl, rfl, rfl, heap, rfl⟩

/-- The set function of a software key in use finds the data it was made for. -/
theorem KeyOk.swdmxKeySet {key : Key} (h : KeyOk key) (v : List UInt8) :
    ∃ swKey, swdmxKeySet v key.swKey = some swKey ∧ KeyOk { key with swKey := swKey } := by
  unfold T5d.swdmxKeySet
  split
  · rename_i hu
    obtain ⟨haes, hshape⟩ := h.shape hu
    cases hiv : key.swKey.isIv with
    | true =>
      simp only [hiv, if_true] at hshape
      obtain ⟨hset, hfree, w, hdata⟩ := hshape
      rw [hset, hdata]
      refine ⟨_, rfl, h.live, fun _ => ⟨haes, ?_⟩⟩
      simp [hfree]
    | false =>
      simp only [hiv, Bool.false_eq_true, if_false] at hshape
      obtain ⟨hset, hfree, w, hdata⟩ := hshape
      rw [hset, hdata]
      refine ⟨_, rfl, h.live, fun _ => ⟨haes, ?_⟩⟩
      simp [hfree]
  · exact ⟨key.swKey, rfl, h⟩

/-! ## Calls -/

section

variable {dev : Device}

theorem KeysOk.setKey (h : KeysOk dev) {k : KeyId} {key : Key} (hkey : KeyOk key)
    (hfreed : key.freed = true → ¬ dev.HwReferred k) : KeysOk (dev.setKey k key) := by
  have hcases : ∀ k', (dev.setKey k key).keys k' = key ∧ k' = k ∨
      (dev.setKey k key).keys k' = dev.keys k' := by
    intro k'
    by_cases hk : k' = k
    · subst hk
      exact .inl ⟨Function.update_self .., rfl⟩
    · exact .inr (Function.update_of_ne hk ..)
  refine ⟨⟨h.pointers.live, h.pointers.inj, h.pointers.fresh, h.pointers.source⟩, ?_, ?_⟩
  · intro k'
    rcases hcases k' with ⟨hk, -⟩ | hk
    · rw [hk]
      exact hkey
    · rw [hk]
      exact h.keys k'
  · intro k' hf
    rcases hcases k' with ⟨hk, rfl⟩ | hk
    · exact hfreed (hk ▸ hf)
    · exact h.freed k' (hk ▸ hf)

theorem t5dAllocKey_keysOk (h : KeysOk dev) (isIv : Bool) : KeysOk (t5dAllocKey isIv dev).1 := by
  unfold t5dAllocKey
  split
  · exact h
  · rename_i k hfind
    have hu : (dev.keys k).used = false := by simpa using List.find?_some hfind
    exact h.setKey ((h.keys k).alloc isIv hu) (h.freed k)

theorem t5dFreeKey_keysOk (h : KeysOk dev) (k : KeyId)
    (hok : (dev.keys k).used = true → FreeOk dev k) : KeysOk (t5dFreeKey k dev).1 := by
  unfold t5dFreeKey
  split
  · rename_i hu
    exact h.setKey (.keyFree (hok hu).1) fun _ => (hok hu).2
  · exact h

theorem t5dConfigKey_keysOk (h : KeysOk dev) (heap : List UInt8) (k : KeyId) (user : UserId)
    (algo : KeyAlgo) : KeysOk (t5dConfigKey heap k user algo dev).1 := by
  unfold t5dConfigKey
  dsimp only
  split
  · rename_i hu
    split
    · exact h.setKey (.init heap hu user algo) fun hf => (nomatch hf)
    · refine h.setKey ⟨fun hsw => ⟨hu, rfl⟩, (h.keys k).shape⟩ fun hf => (nomatch hf)
  · exact h

theorem t5dSetKey_keysOk (h : KeysOk dev) (k : KeyId) (v : List UInt8) {len : Nat}
    (hlen : (dev.keys k).used = true → (dev.keys k).algo.isCsa = true → len ≤ 16) :
    ∃ dev' ret, t5dSetKey k v len dev = some (dev', ret) ∧ KeysOk dev' := by
  unfold t5dSetKey
  dsimp only
  split
  · rename_i hu
    split
    · rename_i hcsa
      unfold hwdmxKeySet
      rw [if_pos (hlen hu hcsa)]
      exact ⟨_, 0, rfl, h.setKey ⟨(h.keys k).live, (h.keys k).shape⟩ (h.freed k)⟩
    · obtain ⟨swKey, h1, hk⟩ := (h.keys k).swdmxKeySet v
      refine ⟨_, 0, ?_, h.setKey hk (h.freed k)⟩
      rw [h1]
      rfl
  · exact ⟨dev, -1, rfl, h⟩

theorem t5dClearKeys_keysOk (h : KeysOk dev)
    (hok : ∀ k, (dev.keys k).used = true → FreeOk dev k) : KeysOk (t5dClearKeys dev).1 := by
  refine ⟨⟨h.pointers.live, h.pointers.inj, h.pointers.fresh, h.pointers.source⟩, ?_, ?_⟩
  · intro k
    dsimp only [t5dClearKeys]
    split
    · rename_i hu
      exact .keyFree (hok k hu).1
    · exact h.keys k
  · intro k hf
    by_cases hu : (dev.keys k).used = true
    · exact (hok k hu).2
    · simp only [t5dClearKeys, if_neg hu] at hf
      exact h.freed k hf

/-- The descrambler calls leave the slots alone. -/
theorem caStep_keysOk {fifos : List AsyncFifo} (h : KeysOk dev) {op : Op} (hr : op.InRange)
    (hok : ∀ k, Loaded fifos dev op k → (dev.keys k).freed = false) :
    ∃ dev', step fifos dev op = some dev' ∧ KeysOk dev' := by
  obtain ⟨dev', h1, hc⟩ := step_classified h.pointers hr
  refine ⟨dev', h1, hc.pointers, hc.keys ▸ h.keys, fun k hf hk => ?_⟩
  rw [hc.keys] at hf
  rcases hc.refs k hk with hk | hk
  · exact h.freed k hf hk
  · exact absurd hf (by simp [hok k hk])

theorem step_keysOk {fifos : List AsyncFifo} (h : KeysOk dev) {op : Op} (hv : op.Valid)
    (hok : KeysKept fifos dev op) : ∃ dev', step fifos dev op = some dev' ∧ KeysOk dev' := by
  cases op with
  | allocKey isIv => exact ⟨_, rfl, t5dAllocKey_keysOk h isIv⟩
  | freeKey k => exact ⟨_, rfl, t5dFreeKey_keysOk h k hok⟩
  | configKey heap k user algo => exact ⟨_, rfl, t5dConfigKey_keysOk h heap k user algo⟩
  | setKey k v len =>
    obtain ⟨dev', ret, h1, hk⟩ := t5dSetKey_keysOk h k v hok
    refine ⟨dev', ?_, hk⟩
    dsimp only [step]
    rw [h1]
    rfl
  | clearKeys => exact ⟨_, rfl, t5dClearKeys_keysOk h hok⟩
  | allocCaChan | freeCaChan | setCaKey | setCaAlgo | setCaScb | clearCa | setDemuxSource =>
    exact caStep_keysOk h hv hok

end

theorem init_keysOk (caAlgo : CaAlgo) (user : UserId) (keyAlgo : KeyAlgo) :
    KeysOk (t5dInitDevice caAlgo user keyAlgo) where
  pointers := (init_inOrder caAlgo user keyAlgo).pointers
  keys _ := .of_unused rfl
  freed _ h := nomatch h

/-- Valid calls that meet the condition are defined and keep the invariant. -/
theorem run_keysOk (fifos : List AsyncFifo) {dev : Device} (h : KeysOk dev) {ops : List Op}
    (hv : ∀ op ∈ ops, op.Valid) (hg : Guarded (step fifos) (KeysKept fifos) dev ops) :
    ∃ dev', run (step fifos) dev ops = some dev' ∧ KeysOk dev' := by
  induction ops generalizing dev with
  | nil => exact ⟨dev, rfl, h⟩
  | cons op ops ih =>
    obtain ⟨dev₁, h1, hk⟩ := step_keysOk h (hv op List.mem_cons_self) hg.1
    obtain ⟨dev₂, h2, hk'⟩ :=
      ih hk (fun op hop => hv op (List.mem_cons_of_mem _ hop)) (hg.2 dev₁ h1)
    exact ⟨dev₂, run_cons_some.mpr ⟨dev₁, h1, h2⟩, hk'⟩

/-! ## The callback -/

/-- The packet selects a usable pair whose key slot was allocated for an IV. -/
def IvAsKey (keys : KeyId → Key) (ch : SwChannel) (pkt : Tspacket) : Prop :=
  ∃ k i, selectKeys ch pkt = some (k, i) ∧ usableKeys (keys k).swKey (keys i).swKey = true ∧
    (keys k).swKey.isIv = true

/-- The channel decrypts the packet with the slot, as its key or as its IV. -/
def DecryptsWith (aesCbcDecrypt : List UInt8 → List UInt8 → List UInt8 → List UInt8)
    (keys : KeyId → Key) (ch : SwChannel) (pkt : Tspacket) (k : KeyId) : Prop :=
  (∃ pkt', swdmxAesCbcDecDescCb aesCbcDecrypt keys ch pkt = some (true, pkt')) ∧
    ∃ p, selectKeys ch pkt = some p ∧ (p.1 = k ∨ p.2 = k)

/-- The callback finds the data it reads unless the packet selects an IV slot as its key. -/
theorem swdmxAesCbcDecDescCb_isSome
    (aesCbcDecrypt : List UInt8 → List UInt8 → List UInt8 → List UInt8) {keys : KeyId → Key}
    (h : ∀ k, KeyOk (keys k)) (ch : SwChannel) (pkt : Tspacket) :
    (swdmxAesCbcDecDescCb aesCbcDecrypt keys ch pkt).isSome ↔ ¬ IvAsKey keys ch pkt := by
  unfold swdmxAesCbcDecDescCb IvAsKey
  cases hsel : selectKeys ch pkt with
  | none => simp
  | some p =>
    obtain ⟨k, i⟩ := p
    dsimp only
    cases hus : usableKeys (keys k).swKey (keys i).swKey with
    | false => simp [hus]
    | true =>
      have hus' := hus
      simp only [usableKeys, Bool.and_eq_true] at hus'
      obtain ⟨⟨⟨hku, hiu⟩, -⟩, hiv⟩ := hus'
      have hk := ((h k).shape hku).2
      have hi := ((h i).shape hiu).2
      simp only [hiv, if_true] at hi
      obtain ⟨-, -, aiv, hidata⟩ := hi
      cases hkiv : (keys k).swKey.isIv with
      | true =>
        simp only [hkiv, if_true] at hk
        obtain ⟨-, -, v, hkdata⟩ := hk
        simp [hidata, hkdata, hus, hkiv]
      | false =>
        simp only [hkiv, Bool.false_eq_true, if_false] at hk
        obtain ⟨-, -, v, hkdata⟩ := hk
        simp [hidata, hkdata, hkiv]

theorem DecryptsWith.used {aesCbcDecrypt : List UInt8 → List UInt8 → List UInt8 → List UInt8}
    {keys : KeyId → Key} {ch : SwChannel} {pkt : Tspacket} {k : KeyId}
    (h : DecryptsWith aesCbcDecrypt keys ch pkt k) : (keys k).swKey.used = true := by
  obtain ⟨⟨pkt', hrun⟩, ⟨key, iv⟩, hsel, hk⟩ := h
  unfold swdmxAesCbcDecDescCb at hrun
  rw [hsel] at hrun
  dsimp only at hrun hk
  split at hrun
  · cases hrun
  · rename_i hus
    simp only [Bool.not_eq_true', Bool.not_eq_false, usableKeys, Bool.and_eq_true] at hus
    rcases hk with rfl | rfl
    · exact hus.1.1.1
    · exact hus.1.1.2

/-- In a run that frees no slot under a CSA algorithm with its software key in use or with a
hardware channel on it, loads no freed slot into a hardware channel and writes no hardware key
of more than 16 bytes, the callback reads every slot as what it was allocated as, unless the
packet's key slot was allocated for an IV, and no channel decrypts with a freed slot. -/
theorem keys_safe (aesCbcDecrypt : List UInt8 → List UInt8 → List UInt8 → List UInt8)
    (fifos : List AsyncFifo) (caAlgo : CaAlgo) (user : UserId) (keyAlgo : KeyAlgo)
    (ops : List Op) (hv : ∀ op ∈ ops, op.Valid)
    (hg : Guarded (step fifos) (KeysKept fifos) (t5dInitDevice caAlgo user keyAlgo) ops) :
    ∃ dev, run (step fifos) (t5dInitDevice caAlgo user keyAlgo) ops = some dev ∧
      (∀ s, ∀ ch ∈ dev.chanList s, ∀ pkt,
        (swdmxAesCbcDecDescCb aesCbcDecrypt dev.keys ch pkt).isSome ↔
          ¬ IvAsKey dev.keys ch pkt) ∧
      ∀ k, (dev.keys k).freed = true →
        (∀ s, ∀ ch ∈ dev.chanList s, ∀ pkt, ¬ DecryptsWith aesCbcDecrypt dev.keys ch pkt k) ∧
          ¬ dev.HwReferred k := by
  obtain ⟨dev, hrun, h⟩ := run_keysOk fifos (init_keysOk caAlgo user keyAlgo) hv hg
  refine ⟨dev, hrun, fun _ ch _ pkt => ?_, fun k hf => ⟨fun _ ch _ pkt hd => ?_, h.freed k hf⟩⟩
  · exact swdmxAesCbcDecDescCb_isSome aesCbcDecrypt h.keys ch pkt
  · have hlive := ((h.keys k).live hd.used).2
    rw [hf] at hlive
    exact nomatch hlive

/-- An AES key bound with its IV to a channel and freed. -/
theorem keys_safe_freed :
    ∃ dev, run (step []) (t5dInitDevice .csa2 (.other 0) .aes)
        [.allocCaChan 0 0x100 .aesCbcClrEnd, .allocKey false, .configKey [] 0 .dscNetwork .aes,
          .allocKey true, .configKey [] 1 .dscNetwork .aes, .setCaKey 0 0 .evenKey 0,
          .setCaKey 0 0 .evenIv 1, .freeKey 0] = some dev ∧
      (dev.keys 0).freed = true ∧
      ∀ s, ∀ ch ∈ dev.chanList s, ∀ pkt, ¬ DecryptsWith (fun _ _ p => p) dev.keys ch pkt 0 := by
  obtain ⟨dev, hrun, -, hfreed⟩ := keys_safe (fun _ _ p => p) [] .csa2 (.other 0) .aes
    [.allocCaChan 0 0x100 .aesCbcClrEnd, .allocKey false, .configKey [] 0 .dscNetwork .aes,
      .allocKey true, .configKey [] 1 .dscNetwork .aes, .setCaKey 0 0 .evenKey 0,
      .setCaKey 0 0 .evenIv 1, .freeKey 0] (by simp [Op.Valid, Op.InRange]) (by
      refine ⟨fun _ h => h.elim, fun _ h1 => ⟨fun _ h => h.elim, fun _ h2 =>
        ⟨fun _ h => h.elim, fun _ h3 => ⟨fun _ h => h.elim, fun _ h4 => ⟨fun _ h => h.elim,
        fun _ h5 => ⟨?_, fun _ h6 => ⟨?_, fun _ h7 => ⟨?_, fun _ _ => trivial⟩⟩⟩⟩⟩⟩⟩⟩
      all_goals
        obtain rfl := Option.some.inj h1
        obtain rfl := Option.some.inj h2
        obtain rfl := Option.some.inj h3
        obtain rfl := Option.some.inj h4
        obtain rfl := Option.some.inj h5
      · rintro k ⟨-, -, hcsa, -⟩
        exact absurd hcsa (by decide)
      · obtain rfl := Option.some.inj h6
        rintro k ⟨-, -, hcsa, -⟩
        exact absurd hcsa (by decide)
      · obtain rfl := Option.some.inj h6
        obtain rfl := Option.some.inj h7
        exact fun _ => ⟨by decide, by decide⟩)
  have hf : (dev.keys 0).freed = true := read_of_run (fun dev => (dev.keys 0).freed) (by decide) hrun
  exact ⟨dev, hrun, hf, (hfreed 0 hf).1⟩

/-- The packet of the two runs below: even key, no payload. -/
def scrambledPacket : Tspacket := ⟨0x100, 0, 0, 0, 2, 0, [], none, none⟩

/-- An IV slot bound as the even key is read as a key schedule, and a slot that was
configured for CSA2 in between still decrypts after its free. -/
theorem key_misused :
    (∃ dev, run (step []) (t5dInitDevice .csa2 (.other 0) .aes)
        [.allocCaChan 0 0x100 .aesCbcClrEnd, .allocKey true, .configKey [] 0 .dscNetwork .aes,
          .setCaKey 0 0 .evenKey 0, .setCaKey 0 0 .evenIv 0] = some dev ∧
      ∃ ch ∈ dev.chanList (.inl 2),
        swdmxAesCbcDecDescCb (fun _ _ p => p) dev.keys ch scrambledPacket = none) ∧
    ∃ dev, run (step []) (t5dInitDevice .csa2 (.other 0) .aes)
        [.allocCaChan 0 0x100 .aesCbcClrEnd, .allocKey false, .configKey [] 0 .dscNetwork .aes,
          .allocKey true, .configKey [] 1 .dscNetwork .aes, .setCaKey 0 0 .evenKey 0,
          .setCaKey 0 0 .evenIv 1, .configKey [] 0 .dscNetwork .csa2, .freeKey 0] = some dev ∧
      (dev.keys 0).freed = true ∧
      ∃ ch ∈ dev.chanList (.inl 2),
        DecryptsWith (fun _ _ p => p) dev.keys ch scrambledPacket 0 := by
  constructor
  · exact ⟨_, rfl, _, List.mem_cons_self, by decide⟩
  · exact ⟨_, rfl, by decide, _, List.mem_cons_self, ⟨scrambledPacket, by decide⟩, (0, 1),
      by decide, .inl rfl⟩

end MediaModules.T5d
