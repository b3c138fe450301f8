import Mathlib.Tactic.Common
import Mathlib.Data.Fintype.Sum
import MediaModules.Lib.Run
import MediaModules.Demux.Types

/-!
# The DVB device: descramblers and keys

The descrambler and key half of `t5d_demux.c`, the software descrambler channels of
`swdmx_descrambler.c` and the hardware channel table of `t5d_hw_dmx.c`. A channel structure
is a record linked in the list of a stream; a use of a pointer to a channel that is not
linked any more, a NULL stream and a copy outside a key are `none`. Register writes have no
effect on the driver and are left out.
-/
namespace MediaModules.T5d

open MediaModules.Demux (Tspacket)

/-! ## Types -/

abbrev Ref := Nat

/-- A demux (and CA) device, a descrambler of one, and a key slot. -/
abbrev CaId := Fin 8
abbrev ChanId := Fin 32
abbrev KeyId := Fin 256
abbrev DescId := CaId × ChanId

/-- `enum t5d_demux_source`. -/
inductive DemuxSource
  | dma (i : Fin 8)
  | frontend (i : Fin 8)
  deriving Repr, DecidableEq

/-- `hw_streams` and `dma_streams`. -/
abbrev StreamId := Fin 3 ⊕ Fin 8

/-- `stream_get`; `none` is NULL. -/
def streamGet : DemuxSource → Option StreamId
  | .frontend i => if h : i.val < 3 then some (.inl ⟨i.val, h⟩) else none
  | .dma i => some (.inr i)

/-- `s->source`. -/
def streamSource : StreamId → DemuxSource
  | .inl i => .frontend (i.castLE (by decide))
  | .inr i => .dma i

/-- `enum ca_sc2_algo_type`. -/
inductive CaAlgo
  | aesCbcClrEnd
  | csa2
  | csa3
  | other (n : Nat)
  deriving Repr, DecidableEq

/-- The test for `CA_ALGO_CSA2` or `CA_ALGO_CSA3`. -/
def CaAlgo.isCsa : CaAlgo → Bool
  | .csa2 | .csa3 => true
  | _ => false

/-- `enum ca_sc2_key_type` and `enum swdmx_keyparity`, which `desc_key_set` maps to each
other. -/
inductive KeyParity
  | evenKey
  | evenIv
  | oddKey
  | oddIv
  | zeroKey
  | zeroIv
  deriving Repr, DecidableEq

/-- `struct t5d_descrambler`. A key index of -1 is `none`. -/
structure Descrambler where
  used : Bool
  scbAsIs : Bool
  pid : UInt16
  scbValue : Int
  algo : CaAlgo
  keyId : KeyParity → Option KeyId
  swDescChan : Option Ref
  hwDescChan : Option (Fin 3 × Fin 8)

/-- `struct swdmx_descchannel`. `descCb` says whether the callback is
`swdmx_aes_cbc_dec_desc_cb`; `owner` is ghost state, the descrambler it was allocated for. -/
structure SwChannel where
  ref : Ref
  owner : DescId
  enable : Bool
  pid : UInt16
  scbAsIs : Bool
  scb : Int
  key : KeyParity → Option KeyId
  descCb : Bool

/-- `struct t5d_hwdmx_descchannel`, less its own position in the table. -/
structure HwChannel where
  used : Bool
  pid : UInt16
  scbAsIs : Bool
  scb : Int
  oddKey : Option KeyId
  evenKey : Option KeyId
  deriving DecidableEq

/-- `enum key_algo` and `enum user_id`. -/
inductive KeyAlgo
  | aes
  | csa2
  | csa3
  | other (n : Nat)
  deriving Repr, DecidableEq

def KeyAlgo.isCsa : KeyAlgo → Bool
  | .csa2 | .csa3 => true
  | _ => false

inductive UserId
  | dscLocDec
  | dscNetwork
  | other (n : Nat)
  deriving Repr, DecidableEq

/-- What `data` of a software key points to: a key schedule, given by the bytes it is
computed from, or an IV. -/
inductive KeyData
  | aesKey (v : List UInt8)
  | aesIv (v : List UInt8)
  deriving Repr, DecidableEq

/-- The functions `set` and `free` point to. -/
inductive KeyFn
  | aesKey
  | aesIv
  deriving Repr, DecidableEq

/-- `struct swdmx_key`. `aesDec` says whether `algo` is `SWDMX_DESC_ALGO_AES_DEC`; `data` is
`none` when it is NULL or freed. -/
structure SwKey where
  used : Bool
  isIv : Bool
  aesDec : Bool
  data : Option KeyData
  set : Option KeyFn
  free : Option KeyFn
  deriving Repr, DecidableEq

/-- `struct t5d_hwdmx_key`. -/
structure HwKey where
  used : Bool
  data : List UInt8
  deriving Repr, DecidableEq

/-- `struct t5d_key`. `freed` is ghost state: the slot was freed, and not allocated and
configured again since. -/
structure Key where
  used : Bool
  user : UserId
  algo : KeyAlgo
  swKey : SwKey
  hwKey : HwKey
  freed : Bool
  deriving Repr, DecidableEq

/-- `struct t5d_dvb`, the channel table of the hardware and the next address. -/
structure Device where
  source : CaId → DemuxSource
  desc : DescId → Descrambler
  keys : KeyId → Key
  chanList : StreamId → List SwChannel
  hwChan : Fin 3 × Fin 8 → HwChannel
  next : Ref

/-- An entry of `t5d_asyncfifos`: the source it serves and the hardware demux, if any. -/
structure AsyncFifo where
  source : DemuxSource
  hwDmxId : Option (Fin 3)
  deriving Repr, DecidableEq

/-! ## Software channels -/

/-- Some stream has a channel at the address. -/
def Device.Linked (dev : Device) (r : Ref) : Prop := ∃ s, ∃ ch ∈ dev.chanList s, ch.ref = r

instance (dev : Device) (r : Ref) : Decidable (dev.Linked r) :=
  inferInstanceAs (Decidable (∃ s, ∃ ch ∈ dev.chanList s, ch.ref = r))

/-- `swdmx_descrambler_alloc_channel`. -/
def descramblerAllocChannel (s : StreamId) (o : DescId) (dev : Device) : Device × Ref :=
  let ch : SwChannel := ⟨dev.next, o, false, 0xffff, false, 0, fun _ => none, false⟩
  ({ dev with
      chanList := Function.update dev.chanList s (dev.chanList s ++ [ch])
      next := dev.next + 1 }, dev.next)

/-- Write to the channel at an address. -/
def swUpdate (r : Ref) (f : SwChannel → SwChannel) (dev : Device) : Option Device :=
  if dev.Linked r then
    some { dev with
      chanList := fun s => (dev.chanList s).map fun ch => if ch.ref = r then f ch else ch }
  else none

/-- `swdmx_desc_channel_set_cb` with the AES callback. -/
def descChannelSetCb (r : Ref) : Device → Option Device :=
  swUpdate r fun ch => { ch with descCb := true }

/-- `swdmx_desc_channel_set_pid`. -/
def descChannelSetPid (r : Ref) (pid : UInt16) : Device → Option Device :=
  swUpdate r fun ch => if pid > 0x1fff ∨ pid = 0x1fff then ch else { ch with pid := pid }

/-- `swdmx_desc_channel_set_key`. -/
def descChannelSetKey (r : Ref) (parity : KeyParity) (key : KeyId) : Device → Option Device :=
  swUpdate r fun ch => { ch with key := Function.update ch.key parity (some key) }

/-- `swdmx_desc_channel_set_scb`. -/
def descChannelSetScb (r : Ref) (asIs : Bool) (scb : Int) : Device → Option Device :=
  swUpdate r fun ch => { ch with scbAsIs := asIs, scb := scb }

/-- `swdmx_desc_channel_enable`. -/
def descChannelEnable (r : Ref) : Device → Option Device :=
  swUpdate r fun ch => if ch.pid > 0x1fff then ch else { ch with enable := true }

/-- `swdmx_desc_channel_free`. -/
def descChannelFree (r : Ref) (dev : Device) : Option Device :=
  if dev.Linked r then
    some { dev with chanList := fun s => (dev.chanList s).filter fun ch => ch.ref ≠ r }
  else none

/-! ## Hardware channels -/

/-- The hardware demux that serves a source. -/
def hwDev (fifos : List AsyncFifo) (source : DemuxSource) : Option (Fin 3) :=
  (fifos.find? fun f => f.source = source).bind AsyncFifo.hwDmxId

def hwChannelInit : HwChannel := ⟨false, 0, false, 0, none, none⟩

def Device.setHwChan (dev : Device) (c : Fin 3 × Fin 8) (ch : HwChannel) : Device :=
  { dev with hwChan := Function.update dev.hwChan c ch }

/-- `t5d_hwdmx_desc_alloc_channel`. When all channels of the hardware demux are taken, the
last one is returned as it is. -/
def hwdmxDescAllocChannel (fifos : List AsyncFifo) (source : DemuxSource) (dev : Device) :
    Device × Option (Fin 3 × Fin 8) :=
  match hwDev fifos source with
  | none => (dev, none)
  | some d =>
    match (List.finRange 8).find? fun i => !(dev.hwChan (d, i)).used with
    | some i => (dev.setHwChan (d, i) { hwChannelInit with pid := 0x1fff, used := true }, some (d, i))
    | none => (dev, some (d, 7))

/-- `t5d_hwdmx_desc_channel_set_pid`. -/
def hwdmxDescChannelSetPid (chan : Option (Fin 3 × Fin 8)) (pid : UInt16) (dev : Device) :
    Device :=
  match chan with
  | none => dev
  | some c => if pid ≥ 0x1fff then dev else dev.setHwChan c { dev.hwChan c with pid := pid }

/-- `t5d_hwdmx_desc_channel_set_key`. The parities of the software enumeration behind the odd
and even key are wrong ones here. -/
def hwdmxDescChannelSetKey (chan : Option (Fin 3 × Fin 8)) (parity : KeyParity) (key : KeyId)
    (dev : Device) : Device :=
  match chan with
  | none => dev
  | some c =>
    match parity with
    | .oddKey => dev.setHwChan c { dev.hwChan c with oddKey := some key }
    | .evenKey => dev.setHwChan c { dev.hwChan c with evenKey := some key }
    | _ => dev

/-- `t5d_hwdmx_desc_channel_set_scb`. -/
def hwdmxDescChannelSetScb (chan : Option (Fin 3 × Fin 8)) (asIs : Bool) (scb : Int)
    (dev : Device) : Device :=
  match chan with
  | none => dev
  | some c => dev.setHwChan c { dev.hwChan c with scbAsIs := asIs, scb := scb }

/-- `t5d_hwdmx_desc_channel_free`. -/
def hwdmxDescChannelFree (chan : Option (Fin 3 × Fin 8)) (dev : Device) : Device :=
  match chan with
  | none => dev
  | some c => dev.setHwChan c hwChannelInit

/-! ## Descramblers -/

def Device.setDesc (dev : Device) (o : DescId) (desc : Descrambler) : Device :=
  { dev with desc := Function.update dev.desc o desc }

/-- `desc_clear`. -/
def descClear (o : DescId) (dev : Device) : Option Device :=
  let desc := dev.desc o
  if desc.algo.isCsa then
    some ((hwdmxDescChannelFree desc.hwDescChan dev).setDesc o { desc with hwDescChan := none })
  else
    match desc.swDescChan with
    | none => some dev
    | some r => (descChannelFree r dev).map fun dev => dev.setDesc o { desc with swDescChan := none }

/-- `desc_key_set`. -/
def descKeySet (o : DescId) (parity : KeyParity) (dev : Device) : Option Device :=
  let desc := dev.desc o
  match desc.keyId parity with
  | none => some dev
  | some key =>
    match desc.swDescChan with
    | some r => descChannelSetKey r parity key dev
    | none =>
      if desc.algo.isCsa then some (hwdmxDescChannelSetKey desc.hwDescChan parity key dev)
      else some dev

/-- First part of `desc_set`: the channel. -/
def descSetChan (fifos : List AsyncFifo) (o : DescId) (s : StreamId) (dev : Device) :
    Option Device :=
  let desc := dev.desc o
  if desc.algo.isCsa then
    let (dev, chan) := hwdmxDescAllocChannel fifos (streamSource s) dev
    let dev := dev.setDesc o { desc with hwDescChan := chan }
    some (if desc.pid ≠ 0x1fff then hwdmxDescChannelSetPid chan desc.pid dev else dev)
  else
    let (dev, r) := descramblerAllocChannel s o dev
    let dev := dev.setDesc o { desc with swDescChan := some r }
    (if desc.pid ≠ 0x1fff then descChannelSetPid r desc.pid dev else some dev).bind fun dev =>
    (if desc.algo = .aesCbcClrEnd then descChannelSetCb r dev else some dev).bind fun dev =>
    descChannelSetScb r desc.scbAsIs desc.scbValue dev

/-- Last part of `desc_set`. Enabling a hardware channel changes nothing. -/
def descEnable (o : DescId) (dev : Device) : Option Device :=
  let desc := dev.desc o
  if desc.algo.isCsa then some dev
  else
    match desc.swDescChan with
    | none => none
    | some r => descChannelEnable r dev

/-- `desc_set`. -/
def descSet (fifos : List AsyncFifo) (o : DescId) (s : StreamId) (dev : Device) :
    Option Device := do
  let dev ← descSetChan fifos o s dev
  let dev ← [KeyParity.evenKey, .evenIv, .oddKey, .oddIv, .zeroKey, .zeroIv].foldlM
    (fun dev parity => descKeySet o parity dev) dev
  descEnable o dev

/-- A loop over the used descramblers of a demux. -/
def forUsed (ca : CaId) (body : DescId → Device → Option Device) (dev : Device) : Option Device :=
  (List.finRange 32).foldlM
    (fun dev i => if (dev.desc (ca, i)).used then body (ca, i) dev else some dev) dev

/-- `t5d_alloc_ca_chan`. -/
def t5dAllocCaChan (fifos : List AsyncFifo) (ca : CaId) (pid : UInt16) (algo : CaAlgo)
    (dev : Device) : Option (Device × Int) :=
  match (List.finRange 32).find? fun i => !(dev.desc (ca, i)).used with
  | none => some (dev, -1)
  | some i => do
    let s ← streamGet (dev.source ca)
    let desc := dev.desc (ca, i)
    let dev := dev.setDesc (ca, i)
      { desc with
        used := true, pid := pid, algo := algo, scbAsIs := false, scbValue := 0
        keyId := fun _ => none }
    let dev ← descSet fifos (ca, i) s dev
    some (dev, i.val)

/-- `t5d_free_ca_chan`. -/
def t5dFreeCaChan (ca : CaId) (chan : ChanId) (dev : Device) : Option (Device × Int) :=
  if (dev.desc (ca, chan)).used then do
    let dev ← descClear (ca, chan) dev
    some (dev.setDesc (ca, chan) { dev.desc (ca, chan) with used := false }, 0)
  else some (dev, -1)

/-- `t5d_set_ca_key`. -/
def t5dSetCaKey (ca : CaId) (chan : ChanId) (type : KeyParity) (key : KeyId) (dev : Device) :
    Option (Device × Int) :=
  let desc := dev.desc (ca, chan)
  if desc.used then do
    let dev := dev.setDesc (ca, chan)
      { desc with keyId := Function.update desc.keyId type (some key) }
    let dev ← descKeySet (ca, chan) type dev
    some (dev, 0)
  else some (dev, -1)

/-- `t5d_set_ca_algo`. The algorithm is stored before it is looked at. -/
def t5dSetCaAlgo (ca : CaId) (chan : ChanId) (algo : CaAlgo) (dev : Device) :
    Option (Device × Int) :=
  let desc := dev.desc (ca, chan)
  if desc.used then
    let dev := dev.setDesc (ca, chan) { desc with algo := algo }
    if algo.isCsa then some (dev, 0)
    else
      match desc.swDescChan with
      | none => some (dev, -1)
      | some r =>
        if algo = .aesCbcClrEnd then (descChannelSetCb r dev).map fun dev => (dev, 0)
        else some (dev, -1)
  else some (dev, -1)

/-- `t5d_set_ca_scb`. -/
def t5dSetCaScb (ca : CaId) (chan : ChanId) (asIs : Bool) (scb : Int) (dev : Device) :
    Option (Device × Int) :=
  let desc := dev.desc (ca, chan)
  if desc.used then
    let dev := dev.setDesc (ca, chan) { desc with scbAsIs := asIs, scbValue := scb }
    if desc.algo.isCsa then some (hwdmxDescChannelSetScb desc.hwDescChan asIs scb dev, 0)
    else
      match desc.swDescChan with
      | none => some (dev, -1)
      | some r => (descChannelSetScb r asIs scb dev).map fun dev => (dev, 0)
  else some (dev, -1)

/-- `t5d_clear_ca`. -/
def t5dClearCa (ca : CaId) : Device → Option Device :=
  forUsed ca fun o dev => do
    let dev ← descClear o dev
    some (dev.setDesc o { dev.desc o with used := false })

/-- The descrambler part of `t5d_set_demux_source`. -/
def t5dSetDemuxSource (fifos : List AsyncFifo) (ca : CaId) (source : DemuxSource)
    (dev : Device) : Option Device :=
  if dev.source ca ≠ source then do
    let dev ← forUsed ca descClear dev
    let s ← streamGet source
    let dev ← forUsed ca (fun o dev => descSet fifos o s dev) dev
    some { dev with source := Function.update dev.source ca source }
  else some dev

/-- The device after `t5d_init_device`: zeroed memory, and the demuxes on the third frontend.
`caAlgo`, `user` and `keyAlgo` are the enumerators with the value 0. -/
def t5dInitDevice (caAlgo : CaAlgo) (user : UserId) (keyAlgo : KeyAlgo) : Device where
  source _ := .frontend 2
  desc _ := ⟨false, false, 0, 0, caAlgo, fun _ => some 0, none, none⟩
  keys _ := ⟨false, user, keyAlgo, ⟨false, false, false, none, none, none⟩,
    ⟨false, List.replicate 16 0⟩, false⟩
  chanList _ := []
  hwChan _ := hwChannelInit
  next := 0

end MediaModules.T5d
