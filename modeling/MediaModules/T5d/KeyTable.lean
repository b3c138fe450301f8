import Mathlib.Tactic.Common
import Mathlib.Data.Fintype.Prod
import MediaModules.T5d.Device

/-!
# Keys, the AES callback and the calls of the device

The key table of `t5d_demux.c` over the software keys of `swdmx_descrambler.c` and
`swdmx_aes_cbc.c`. A use of a key's data as what it was not allocated as, or after it was
freed, is `none`.
-/
namespace MediaModules.T5d

open MediaModules.Demux (Tspacket)
open MediaModules.Lib.Run

/-! ## Key slots -/

/-- `swdmx_key_clear`. -/
def swdmxKeyClear (key : SwKey) : SwKey :=
  if key.used then
    { key with
      data := if key.free.isSome then none else key.data
      used := false
      aesDec := false }
  else key

/-- `swdmx_aes_dec_key_init`. `heap` is what the fresh memory holds. -/
def swdmxAesDecKeyInit (heap : List UInt8) (key : SwKey) : SwKey :=
  let key := swdmxKeyClear key
  let key := { key with used := true, aesDec := true }
  if key.isIv then
    { key with data := some (.aesIv heap), set := some .aesIv, free := some .aesIv }
  else
    { key with data := some (.aesKey heap), set := some .aesKey, free := some .aesKey }

/-- `swdmx_key_set`: 16 bytes are read whatever the length. -/
def swdmxKeySet (v : List UInt8) (key : SwKey) : Option SwKey :=
  if key.used then
    match key.set, key.data with
    | some .aesIv, some (.aesIv _) => some { key with data := some (.aesIv (v.take 16)) }
    | some .aesKey, some (.aesKey _) => some { key with data := some (.aesKey (v.take 16)) }
    | _, _ => none
  else some key

/-- `t5d_hwdmx_key_clear`. -/
def hwdmxKeyClear (key : HwKey) : HwKey := { key with used := false }

def Device.setKey (dev : Device) (k : KeyId) (key : Key) : Device :=
  { dev with keys := Function.update dev.keys k key }

/-- The key is the odd or the even key of a used hardware channel. The chip descrambles with
the bytes that were loaded with it: nothing but a load of another key takes them out. -/
def Device.HwReferred (dev : Device) (k : KeyId) : Prop :=
  ∃ c, (dev.hwChan c).used = true ∧
    ((dev.hwChan c).oddKey = some k ∨ (dev.hwChan c).evenKey = some k)

instance (dev : Device) (k : KeyId) : Decidable (dev.HwReferred k) :=
  inferInstanceAs (Decidable (∃ _, _))

/-- `t5d_hwdmx_key_set`: the first `len` bytes of `v` are copied into 16 bytes. -/
def hwdmxKeySet (k : KeyId) (v : List UInt8) (len : Nat) (dev : Device) (key : HwKey) :
    Option HwKey :=
  if len ≤ 16 then
    some
      { data := v.take len ++ key.data.drop len
        used := if dev.HwReferred k then true else key.used }
  else none

/-- `t5d_alloc_key`. -/
def t5dAllocKey (isIv : Bool) (dev : Device) : Device × Int :=
  match (List.finRange 256).find? fun k => !(dev.keys k).used with
  | none => (dev, -1)
  | some k =>
    let key := dev.keys k
    (dev.setKey k { key with used := true, swKey := { key.swKey with isIv := isIv } }, k.val)

/-- What `t5d_free_key` and `t5d_clear_keys` do with a used key. -/
def keyFree (key : Key) : Key :=
  if key.algo.isCsa then
    { key with hwKey := hwdmxKeyClear key.hwKey, used := false, freed := true }
  else { key with swKey := swdmxKeyClear key.swKey, used := false, freed := true }

/-- `t5d_free_key`. -/
def t5dFreeKey (k : KeyId) (dev : Device) : Device × Int :=
  if (dev.keys k).used then (dev.setKey k (keyFree (dev.keys k)), 0) else (dev, -1)

/-- `t5d_config_key`. -/
def t5dConfigKey (heap : List UInt8) (k : KeyId) (user : UserId) (algo : KeyAlgo)
    (dev : Device) : Device × Int :=
  let key := dev.keys k
  if key.used then
    let swKey := if (user = .dscLocDec ∨ user = .dscNetwork) ∧ algo = .aes then
      swdmxAesDecKeyInit heap key.swKey else key.swKey
    (dev.setKey k { key with user := user, algo := algo, swKey := swKey, freed := false }, 0)
  else (dev, -1)

/-- `t5d_set_key`. -/
def t5dSetKey (k : KeyId) (v : List UInt8) (len : Nat) (dev : Device) : Option (Device × Int) :=
  let key := dev.keys k
  if key.used then
    if key.algo.isCsa then
      (hwdmxKeySet k v len dev key.hwKey).map fun hwKey => (dev.setKey k { key with hwKey := hwKey }, 0)
    else
      (swdmxKeySet v key.swKey).map fun swKey => (dev.setKey k { key with swKey := swKey }, 0)
  else some (dev, -1)

/-- `t5d_clear_keys`. -/
def t5dClearKeys (dev : Device) : Device × Int :=
  ({ dev with keys := fun k => if (dev.keys k).used then keyFree (dev.keys k) else dev.keys k }, 0)

/-! ## The AES callback -/

/-- The key and the IV that go with the scrambling control of a packet. -/
def scrambleParity (scramble : UInt8) : Option (KeyParity × KeyParity) :=
  if scramble = 2 then some (.evenKey, .evenIv)
  else if scramble = 3 then some (.oddKey, .oddIv)
  else if scramble = 0 then some (.zeroKey, .zeroIv)
  else none

/-- The slots a channel refers to for a packet, when it has both. -/
def selectKeys (ch : SwChannel) (pkt : Tspacket) : Option (KeyId × KeyId) := do
  let (key, iv) ← scrambleParity pkt.scramble
  let key ← ch.key key
  let iv ← ch.key iv
  some (key, iv)

/-- The test of `swdmx_aes_cbc_dec_desc_cb` on the selected key and IV. -/
def usableKeys (key iv : SwKey) : Bool := key.used && iv.used && key.aesDec && iv.isIv

section

variable (aesCbcDecrypt : List UInt8 → List UInt8 → List UInt8 → List UInt8)

/-- `swdmx_aes_cbc_dec_desc_cb` and `aes_cbc_dec_desc_pkt`: the return value, with `true` for
0, and the packet. -/
def swdmxAesCbcDecDescCb (keys : KeyId → Key) (ch : SwChannel) (pkt : Tspacket) :
    Option (Bool × Tspacket) :=
  match selectKeys ch pkt with
  | none => some (false, pkt)
  | some (k, i) =>
    let key := (keys k).swKey
    let iv := (keys i).swKey
    if !usableKeys key iv then some (false, pkt)
    else
      match key.data, iv.data with
      | some (.aesKey akey), some (.aesIv aiv) =>
        let payload := pkt.payload.map fun p =>
          let len := p.length - p.length % 16
          aesCbcDecrypt akey aiv (p.take len) ++ p.drop len
        some (true, { pkt with payload := payload })
      | _, _ => none

end

/-! ## Runs -/

/-- The calls a device receives. -/
inductive Op
  | allocCaChan (ca : CaId) (pid : UInt16) (algo : CaAlgo)
  | freeCaChan (ca : CaId) (chan : ChanId)
  | setCaKey (ca : CaId) (chan : ChanId) (type : KeyParity) (key : KeyId)
  | setCaAlgo (ca : CaId) (chan : ChanId) (algo : CaAlgo)
  | setCaScb (ca : CaId) (chan : ChanId) (asIs : Bool) (scb : Int)
  | clearCa (ca : CaId)
  | setDemuxSource (ca : CaId) (source : DemuxSource)
  | allocKey (isIv : Bool)
  | freeKey (key : KeyId)
  | configKey (heap : List UInt8) (key : KeyId) (user : UserId) (algo : KeyAlgo)
  | setKey (key : KeyId) (v : List UInt8) (len : Nat)
  | clearKeys

def step (fifos : List AsyncFifo) (dev : Device) : Op → Option Device
  | .allocCaChan ca pid algo => (t5dAllocCaChan fifos ca pid algo dev).map Prod.fst
  | .freeCaChan ca chan => (t5dFreeCaChan ca chan dev).map Prod.fst
  | .setCaKey ca chan type key => (t5dSetCaKey ca chan type key dev).map Prod.fst
  | .setCaAlgo ca chan algo => (t5dSetCaAlgo ca chan algo dev).map Prod.fst
  | .setCaScb ca chan asIs scb => (t5dSetCaScb ca chan asIs scb dev).map Prod.fst
  | .clearCa ca => t5dClearCa ca dev
  | .setDemuxSource ca source => t5dSetDemuxSource fifos ca source dev
  | .allocKey isIv => some (t5dAllocKey isIv dev).1
  | .freeKey key => some (t5dFreeKey key dev).1
  | .configKey heap key user algo => some (t5dConfigKey heap key user algo dev).1
  | .setKey key v len => (t5dSetKey key v len dev).map Prod.fst
  | .clearKeys => some (t5dClearKeys dev).1

end MediaModules.T5d
