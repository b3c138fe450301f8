import Mathlib.Tactic.Common
import MediaModules.T5d.KeyTable

/-!
# Who owns a descrambler channel

`Pointers` and `Owned` tie the channels linked in the streams to the pointers of the
descramblers; the first holds in every run and keeps the calls defined. On top of them,
`ChannelsOk` says which kind of channel a descrambler has. A call keeps it unless it moves a
used descrambler between the algorithms with a hardware and those with a software channel, or
asks for a hardware channel of a source that has none.
-/
namespace MediaModules.T5d

open MediaModules.Lib.Run

/-- The channel pointers of the descramblers: each is to a linked channel and is held once.
Sources are those with a stream. -/
structure Pointers (dev : Device) : Prop where
  live : ∀ o r, (dev.desc o).swDescChan = some r → dev.Linked r
  inj : ∀ o o' r, (dev.desc o).swDescChan = some r → (dev.desc o').swDescChan = some r → o = o'
  fresh : ∀ r, dev.Linked r → r < dev.next
  source : ∀ ca, (streamGet (dev.source ca)).isSome

/-- Every linked channel is the one its owner points to. -/
def Owned (dev : Device) : Prop :=
  ∀ s, ∀ ch ∈ dev.chanList s, (dev.desc ch.owner).swDescChan = some ch.ref

/-- A change of channel contents only; the hardware channels are loaded with keys of `L`. -/
structure Quiet (L : KeyId → Prop) (dev dev' : Device) : Prop where
  desc : dev'.desc = dev.desc
  source : dev'.source = dev.source
  keys : dev'.keys = dev.keys
  pointers : Pointers dev → Pointers dev'
  owned : Owned dev → Owned dev'
  refs : ∀ k, dev'.HwReferred k → dev.HwReferred k ∨ L k

theorem hwReferred_setHwChan {dev : Device} {c : Fin 3 × Fin 8} {ch : HwChannel} {k : KeyId}
    (h : (dev.setHwChan c ch).HwReferred k) :
    dev.HwReferred k ∨ ch.used = true ∧ (ch.oddKey = some k ∨ ch.evenKey = some k) := by
  obtain ⟨c', hu, hk⟩ := h
  by_cases hc : c' = c
  · subst hc
    simp only [Device.setHwChan, Function.update_self] at hu hk
    exact .inr ⟨hu, hk⟩
  · simp only [Device.setHwChan, Function.update_of_ne hc] at hu hk
    exact .inl ⟨c', hu, hk⟩

namespace Quiet

variable {L : KeyId → Prop} {dev dev' dev'' : Device}

theorem refl (dev : Device) : Quiet L dev dev := ⟨rfl, rfl, rfl, id, id, fun _ => .inl⟩

theorem trans (h : Quiet L dev dev') (h' : Quiet L dev' dev'') : Quiet L dev dev'' where
  desc := h'.desc.trans h.desc
  source := h'.source.trans h.source
  keys := h'.keys.trans h.keys
  pointers hp := h'.pointers (h.pointers hp)
  owned ho := h'.owned (h.owned ho)
  refs k hk := (h'.refs k hk).elim (h.refs k) .inr

/-- Of the hardware table only the keys of the used channels matter. -/
theorem setHwChan {c : Fin 3 × Fin 8} {ch : HwChannel}
    (h : ∀ k, ch.used = true → ch.oddKey = some k ∨ ch.evenKey = some k →
      dev.HwReferred k ∨ L k) : Quiet L dev (dev.setHwChan c ch) where
  desc := rfl
  source := rfl
  keys := rfl
  pointers hp := ⟨hp.live, hp.inj, hp.fresh, hp.source⟩
  owned ho := ho
  refs k hk := (hwReferred_setHwChan hk).elim .inl fun hr => h k hr.1 hr.2

end Quiet

/-! ## Channel functions -/

section

variable {L : KeyId → Prop}

theorem swUpdate_quiet (r : Ref) (f : SwChannel → SwChannel)
    (hf : ∀ ch, (f ch).ref = ch.ref ∧ (f ch).owner = ch.owner) {dev : Device}
    (hr : dev.Linked r) : ∃ dev', swUpdate r f dev = some dev' ∧ Quiet L dev dev' := by
  let upd : SwChannel → SwChannel := fun ch => if ch.ref = r then f ch else ch
  have hupd : ∀ ch, (upd ch).ref = ch.ref ∧ (upd ch).owner = ch.owner := by
    intro ch
    dsimp only [upd]
    split
    · exact hf ch
    · exact ⟨rfl, rfl⟩
  have hlinked : ∀ q,
      Device.Linked { dev with chanList := fun s => (dev.chanList s).map upd } q ↔
        dev.Linked q := by
    intro q
    constructor
    · rintro ⟨s, ch, hch, rfl⟩
      obtain ⟨ch', hch', rfl⟩ := List.mem_map.mp hch
      exact ⟨s, ch', hch', (hupd ch').1.symm⟩
    · rintro ⟨s, ch, hch, rfl⟩
      exact ⟨s, upd ch, List.mem_map_of_mem hch, (hupd ch).1⟩
  refine ⟨_, if_pos hr, rfl, rfl, rfl, fun h => ⟨?_, h.inj, ?_, h.source⟩, ?_, fun _ => .inl⟩
  · exact fun o q hq => (hlinked q).mpr (h.live o q hq)
  · exact fun q hq => h.fresh q ((hlinked q).mp hq)
  · intro h s ch hch
    obtain ⟨ch', hch', rfl⟩ := List.mem_map.mp hch
    show (dev.desc (upd ch').owner).swDescChan = some (upd ch').ref
    rw [(hupd ch').1, (hupd ch').2]
    exact h s ch' hch'

theorem descChannelSetCb_quiet {r : Ref} {dev : Device} (hr : dev.Linked r) :
    ∃ dev', descChannelSetCb r dev = some dev' ∧ Quiet L dev dev' :=
  swUpdate_quiet r _ (fun _ => by exact ⟨rfl, rfl⟩) hr

theorem descChannelSetPid_quiet {r : Ref} (pid : UInt16) {dev : Device} (hr : dev.Linked r) :
    ∃ dev', descChannelSetPid r pid dev = some dev' ∧ Quiet L dev dev' :=
  swUpdate_quiet r _ (fun ch => by split <;> exact ⟨rfl, rfl⟩) hr

theorem descChannelSetKey_quiet {r : Ref} (parity : KeyParity) (key : KeyId) {dev : Device}
    (hr : dev.Linked r) :
    ∃ dev', descChannelSetKey r parity key dev = some dev' ∧ Quiet L dev dev' :=
  swUpdate_quiet r _ (fun _ => by exact ⟨rfl, rfl⟩) hr

theorem descChannelSetScb_quiet {r : Ref} (asIs : Bool) (scb : Int) {dev : Device}
    (hr : dev.Linked r) :
    ∃ dev', descChannelSetScb r asIs scb dev = some dev' ∧ Quiet L dev dev' :=
  swUpdate_quiet r _ (fun _ => by exact ⟨rfl, rfl⟩) hr

theorem descChannelEnable_quiet {r : Ref} {dev : Device} (hr : dev.Linked r) :
    ∃ dev', descChannelEnable r dev = some dev' ∧ Quiet L dev dev' :=
  swUpdate_quiet r _ (fun ch => by split <;> exact ⟨rfl, rfl⟩) hr

theorem hwdmxDescChannelSetPid_quiet (chan : Option (Fin 3 × Fin 8)) (pid : UInt16)
    (dev : Device) : Quiet L dev (hwdmxDescChannelSetPid chan pid dev) := by
  cases chan with
  | none => exact .refl dev
  | some c =>
    unfold hwdmxDescChannelSetPid
    dsimp only
    split
    · exact .refl dev
    · exact .setHwChan fun k hu hk => .inl ⟨c, hu, hk⟩

theorem hwdmxDescChannelSetKey_quiet (chan : Option (Fin 3 × Fin 8)) (parity : KeyParity)
    (key : KeyId) (dev : Device)
    (hL : ∀ c, chan = some c → (dev.hwChan c).used = true →
      parity = .oddKey ∨ parity = .evenKey → L key) :
    Quiet L dev (hwdmxDescChannelSetKey chan parity key dev) := by
  cases chan with
  | none => exact .refl dev
  | some c =>
    cases parity with
    | oddKey =>
      refine .setHwChan fun k hu hk => ?_
      rcases hk with hk | hk
      · exact .inr (Option.some.inj hk ▸ hL c rfl hu (.inl rfl))
      · exact .inl ⟨c, hu, .inr hk⟩
    | evenKey =>
      refine .setHwChan fun k hu hk => ?_
      rcases hk with hk | hk
      · exact .inl ⟨c, hu, .inl hk⟩
      · exact .inr (Option.some.inj hk ▸ hL c rfl hu (.inr rfl))
    | oddIv | evenIv | zeroKey | zeroIv => exact .refl dev

theorem hwdmxDescChannelSetScb_quiet (chan : Option (Fin 3 × Fin 8)) (asIs : Bool) (scb : Int)
    (dev : Device) : Quiet L dev (hwdmxDescChannelSetScb chan asIs scb dev) := by
  cases chan with
  | none => exact .refl dev
  | some c => exact .setHwChan fun k hu hk => .inl ⟨c, hu, hk⟩

theorem hwdmxDescChannelFree_quiet (chan : Option (Fin 3 × Fin 8)) (dev : Device) :
    Quiet L dev (hwdmxDescChannelFree chan dev) := by
  cases chan with
  | none => exact .refl dev
  | some c => exact .setHwChan fun k hu _ => (nomatch hu)

/-- A hardware channel is returned exactly for the sources that some hardware demux serves. -/
theorem hwdmxDescAllocChannel_quiet (fifos : List AsyncFifo) (source : DemuxSource)
    (dev : Device) :
    Quiet L dev (hwdmxDescAllocChannel fifos source dev).1 ∧
      (hwdmxDescAllocChannel fifos source dev).2.isSome = (hwDev fifos source).isSome := by
  unfold hwdmxDescAllocChannel
  cases hwDev fifos source with
  | none => exact ⟨.refl dev, rfl⟩
  | some d =>
    dsimp only
    split
    · refine ⟨.setHwChan fun k _ hk => ?_, rfl⟩
      rcases hk with hk | hk <;> exact nomatch hk
    · exact ⟨.refl dev, rfl⟩

/-- The key of a parity is loaded into the descrambler's hardware channel. -/
def Loads (dev : Device) (o : DescId) (parity : KeyParity) (k : KeyId) : Prop :=
  (dev.desc o).algo.isCsa = true ∧ (dev.desc o).swDescChan = none ∧
    (∃ c, (dev.desc o).hwDescChan = some c ∧ (dev.hwChan c).used = true) ∧
    (parity = .oddKey ∨ parity = .evenKey) ∧ (dev.desc o).keyId parity = some k

/-- The keys of a descrambler are set in its channel. -/
theorem descKeySet_quiet {dev : Device} (h : Pointers dev) (o : DescId) (parity : KeyParity)
    (hL : ∀ k, Loads dev o parity k → L k) :
    ∃ dev', descKeySet o parity dev = some dev' ∧ Quiet L dev dev' := by
  unfold descKeySet
  dsimp only
  cases hkey : (dev.desc o).keyId parity with
  | none => exact ⟨dev, rfl, .refl dev⟩
  | some key =>
    dsimp only
    cases hsw : (dev.desc o).swDescChan with
    | some r => exact descChannelSetKey_quiet parity key (h.live o r hsw)
    | none =>
      dsimp only
      split
      · rename_i hcsa
        refine ⟨_, rfl, hwdmxDescChannelSetKey_quiet _ _ _ _ fun c hc hu hp => ?_⟩
        exact hL key ⟨hcsa, hsw, ⟨c, hc, hu⟩, hp, hkey⟩
      · exact ⟨_, rfl, .refl dev⟩

theorem descKeySets_quiet (o : DescId) (parities : List KeyParity) {d : Descrambler}
    (hL : ∀ parity k, d.algo.isCsa = true → d.swDescChan = none → d.hwDescChan.isSome →
      parity = .oddKey ∨ parity = .evenKey → d.keyId parity = some k → L k) :
    ∀ {dev : Device}, Pointers dev → dev.desc o = d →
      ∃ dev', parities.foldlM (fun dev parity => descKeySet o parity dev) dev = some dev' ∧
        Quiet L dev dev' := by
  induction parities with
  | nil => exact fun {dev} _ _ => ⟨dev, rfl, .refl dev⟩
  | cons parity parities ih =>
    intro dev h hd
    have hload : ∀ k, Loads dev o parity k → L k := by
      rintro k ⟨hcsa, hsw, ⟨c, hc, -⟩, hp, hk⟩
      rw [hd] at hcsa hsw hc hk
      exact hL parity k hcsa hsw (by simp [hc]) hp hk
    obtain ⟨dev₁, h1, hq1⟩ := descKeySet_quiet h o parity hload
    obtain ⟨dev₂, h2, hq2⟩ := ih (hq1.pointers h) (hq1.desc ▸ hd)
    refine ⟨dev₂, ?_, hq1.trans hq2⟩
    rw [List.foldlM_cons, h1]
    exact h2

end

/-! ## Calls on one descrambler -/

/-- A call on the descrambler `o` that changes it as `R` says and loads keys of `L`. It keeps
`Owned` when the descrambler met `pre`. -/
structure Touches (o : DescId) (pre : Descrambler → Prop) (R : Descrambler → Descrambler → Prop)
    (L : KeyId → Prop) (dev dev' : Device) : Prop where
  pointers : Pointers dev'
  source : dev'.source = dev.source
  keys : dev'.keys = dev.keys
  frame : ∀ o', o' ≠ o → dev'.desc o' = dev.desc o'
  this : R (dev.desc o) (dev'.desc o)
  owned : pre (dev.desc o) → Owned dev → Owned dev'
  refs : ∀ k, dev'.HwReferred k → dev.HwReferred k ∨ L k

namespace Device

@[simp] theorem setDesc_desc (dev : Device) (o : DescId) (d : Descrambler) :
    (dev.setDesc o d).desc o = d :=
  Function.update_self ..

theorem setDesc_desc_ne (dev : Device) {o o' : DescId} (d : Descrambler) (h : o' ≠ o) :
    (dev.setDesc o d).desc o' = dev.desc o' :=
  Function.update_of_ne h ..

/-- The pointers of the descramblers stay when the one descrambler keeps its own. -/
theorem setDesc_sw {dev : Device} {o : DescId} {d : Descrambler}
    (hd : d.swDescChan = (dev.desc o).swDescChan) (o' : DescId) :
    ((dev.setDesc o d).desc o').swDescChan = (dev.desc o').swDescChan := by
  by_cases ho : o' = o
  · subst ho
    rw [setDesc_desc, hd]
  · rw [setDesc_desc_ne dev d ho]

end Device

theorem Pointers.setDesc {dev : Device} (h : Pointers dev) {o : DescId} {d : Descrambler}
    (hd : d.swDescChan = (dev.desc o).swDescChan) : Pointers (dev.setDesc o d) := by
  have hsw := Device.setDesc_sw hd
  refine ⟨?_, ?_, h.fresh, h.source⟩
  · intro o' r hr
    rw [hsw] at hr
    exact h.live o' r hr
  · intro o' o'' r hr hr'
    rw [hsw] at hr hr'
    exact h.inj o' o'' r hr hr'

theorem Owned.setDesc {dev : Device} (h : Owned dev) {o : DescId} {d : Descrambler}
    (hd : d.swDescChan = (dev.desc o).swDescChan) : Owned (dev.setDesc o d) := by
  intro s ch hch
  rw [Device.setDesc_sw hd]
  exact h s ch hch

namespace Touches

variable {o : DescId} {pre : Descrambler → Prop} {R R' : Descrambler → Descrambler → Prop}
  {L : KeyId → Prop} {dev dev' dev'' : Device}

theorem quiet (h : Touches o pre R L dev dev') (hq : Quiet L dev' dev'') :
    Touches o pre R L dev dev'' where
  pointers := hq.pointers h.pointers
  source := hq.source.trans h.source
  keys := hq.keys.trans h.keys
  frame o' ho := (congrFun hq.desc o').trans (h.frame o' ho)
  this := by
    rw [hq.desc]
    exact h.this
  owned hp ho := hq.owned (h.owned hp ho)
  refs k hk := (hq.refs k hk).elim (h.refs k) .inr

/-- Afterwards the descrambler is written, its software channel apart. -/
theorem setDesc (h : Touches o pre R L dev dev') {d : Descrambler}
    (hd : d.swDescChan = (dev'.desc o).swDescChan) (hR : R' (dev.desc o) d) :
    Touches o pre R' L dev (dev'.setDesc o d) where
  pointers := h.pointers.setDesc hd
  source := h.source
  keys := h.keys
  frame o' ho := (dev'.setDesc_desc_ne d ho).trans (h.frame o' ho)
  this := by
    rw [Device.setDesc_desc]
    exact hR
  owned hp ho := (h.owned hp ho).setDesc hd
  refs := h.refs

/-- A descrambler is written and nothing else is. -/
theorem write (h : Pointers dev) {d : Descrambler}
    (hd : d.swDescChan = (dev.desc o).swDescChan) (hR : R (dev.desc o) d) :
    Touches o pre R L dev (dev.setDesc o d) where
  pointers := h.setDesc hd
  source := rfl
  keys := rfl
  frame _ ho := dev.setDesc_desc_ne d ho
  this := by
    rw [Device.setDesc_desc]
    exact hR
  owned _ ho := ho.setDesc hd
  refs _ := .inl

end Touches

/-- What `desc_clear` does to a descrambler. -/
def Descrambler.cleared (d : Descrambler) : Descrambler :=
  if d.algo.isCsa then { d with hwDescChan := none } else { d with swDescChan := none }

/-- `desc_set` on a source loads the key into the descrambler's hardware channel. -/
def Descrambler.SetLoads (fifos : List AsyncFifo) (source : DemuxSource) (d : Descrambler)
    (k : KeyId) : Prop :=
  d.algo.isCsa = true ∧ d.swDescChan = none ∧ (hwDev fifos source).isSome ∧
    (d.keyId .oddKey = some k ∨ d.keyId .evenKey = some k)

/-- What `desc_set` on a source does to a descrambler. -/
def SetOn (fifos : List AsyncFifo) (source : DemuxSource) (d d' : Descrambler) : Prop :=
  if d.algo.isCsa then
    ∃ chan, d' = { d with hwDescChan := chan } ∧ chan.isSome = (hwDev fifos source).isSome
  else ∃ r, d' = { d with swDescChan := some r }

section

variable {L : KeyId → Prop}

/-- The free of a software channel, the pointer to it included. -/
theorem descChannelFree_spec {dev : Device} (h : Pointers dev) {o : DescId} {r : Ref}
    (hsw : (dev.desc o).swDescChan = some r) :
    ∃ dev₁, descChannelFree r dev = some dev₁ ∧
      Touches o (fun _ => True) (fun d d' => d' = { d with swDescChan := none }) L dev
        (dev₁.setDesc o { dev.desc o with swDescChan := none }) := by
  refine ⟨_, if_pos (h.live o r hsw), ?_⟩
  generalize hdev₁ : ({ dev with
    chanList := fun s => (dev.chanList s).filter fun ch => ch.ref ≠ r } : Device) = dev₁
  generalize hd : ({ dev.desc o with swDescChan := none } : Descrambler) = d
  have hdesc : dev₁.desc = dev.desc := hdev₁ ▸ rfl
  have hmem : ∀ s ch, ch ∈ dev₁.chanList s ↔ ch ∈ dev.chanList s ∧ ch.ref ≠ r := by
    intro s ch
    subst hdev₁
    simp only [List.mem_filter, decide_eq_true_eq]
  have hsw' : ∀ o' q, ((dev₁.setDesc o d).desc o').swDescChan = some q ↔
      o' ≠ o ∧ (dev.desc o').swDescChan = some q := by
    intro o' q
    by_cases ho : o' = o
    · subst ho hd
      simp
    · rw [Device.setDesc_desc_ne _ _ ho, hdesc]
      exact ⟨fun hq => ⟨ho, hq⟩, And.right⟩
  refine ⟨⟨?_, ?_, ?_, ?_⟩, ?_, ?_, ?_, ?_, ?_, ?_⟩
  · intro o' q hq
    obtain ⟨ho, hq⟩ := (hsw' o' q).mp hq
    obtain ⟨s, ch, hch, rfl⟩ := h.live o' q hq
    refine ⟨s, ch, (hmem s ch).mpr ⟨hch, ?_⟩, rfl⟩
    rintro rfl
    exact ho (h.inj o' o _ hq hsw)
  · intro o' o'' q hq hq'
    exact h.inj o' o'' q ((hsw' o' q).mp hq).2 ((hsw' o'' q).mp hq').2
  · rintro q ⟨s, ch, hch, rfl⟩
    have hlt := h.fresh _ ⟨s, ch, ((hmem s ch).mp hch).1, rfl⟩
    subst hdev₁
    exact hlt
  · subst hdev₁
    exact h.source
  · subst hdev₁
    rfl
  · subst hdev₁
    rfl
  · intro o' ho
    rw [Device.setDesc_desc_ne _ _ ho, hdesc]
  · rw [Device.setDesc_desc, hd]
  · intro _ hown s ch hch
    obtain ⟨hch, hne⟩ := (hmem s ch).mp hch
    refine (hsw' ch.owner ch.ref).mpr ⟨?_, hown s ch hch⟩
    intro ho
    have hr := hown s ch hch
    rw [ho, hsw] at hr
    exact hne (Option.some.inj hr).symm
  · subst hdev₁
    exact fun _ => .inl

theorem descClear_spec {dev : Device} (h : Pointers dev) (o : DescId) :
    ∃ dev', descClear o dev = some dev' ∧
      Touches o (fun _ => True) (fun d d' => d' = d.cleared) L dev dev' := by
  unfold descClear
  dsimp only
  split
  · rename_i hcsa
    have hq : Quiet L dev _ := hwdmxDescChannelFree_quiet (dev.desc o).hwDescChan dev
    refine ⟨_, rfl, (hq.pointers h).setDesc ?_, hq.source, hq.keys, ?_, ?_, ?_, hq.refs⟩
    · rw [hq.desc]
    · intro o' ho
      rw [Device.setDesc_desc_ne _ _ ho, hq.desc]
    · rw [Device.setDesc_desc, Descrambler.cleared, if_pos hcsa]
    · intro _ ho
      apply (hq.owned ho).setDesc
      rw [hq.desc]
  · rename_i hcsa
    cases hsw : (dev.desc o).swDescChan with
    | none =>
      refine ⟨dev, rfl, h, rfl, rfl, fun _ _ => rfl, ?_, fun _ ho => ho, fun _ => .inl⟩
      rw [Descrambler.cleared, if_neg hcsa, ← hsw]
    | some r =>
      obtain ⟨dev₁, h1, ht⟩ := descChannelFree_spec (L := L) h hsw
      refine ⟨_, ?_, { ht with this := ?_ }⟩
      · dsimp only
        rw [h1]
        rfl
      · rw [ht.this, Descrambler.cleared, if_neg hcsa]

/-- A new software channel, the pointer to it included. -/
theorem descramblerAllocChannel_spec {dev : Device} (h : Pointers dev) (s : StreamId)
    (o : DescId) :
    Touches o (fun d => d.swDescChan = none)
      (fun d d' => d' = { d with swDescChan := some dev.next }) L dev
      ((descramblerAllocChannel s o dev).1.setDesc o
        { dev.desc o with swDescChan := some dev.next }) := by
  generalize hdev₁ : (descramblerAllocChannel s o dev).1 = dev₁
  generalize hd : ({ dev.desc o with swDescChan := some dev.next } : Descrambler) = d
  have hdesc : dev₁.desc = dev.desc := hdev₁ ▸ rfl
  have hnext : dev₁.next = dev.next + 1 := hdev₁ ▸ rfl
  have hmem : ∀ s' ch, ch ∈ dev₁.chanList s' ↔ ch ∈ dev.chanList s' ∨
      s' = s ∧ ch = ⟨dev.next, o, false, 0xffff, false, 0, fun _ => none, false⟩ := by
    intro s' ch
    subst hdev₁
    by_cases hs : s' = s
    · subst hs
      simp [descramblerAllocChannel]
    · simp [descramblerAllocChannel, hs]
  have hsw : ∀ o' q, ((dev₁.setDesc o d).desc o').swDescChan = some q ↔
      o' = o ∧ dev.next = q ∨ o' ≠ o ∧ (dev.desc o').swDescChan = some q := by
    intro o' q
    by_cases ho : o' = o
    · subst ho hd
      simp
    · rw [Device.setDesc_desc_ne _ _ ho, hdesc]
      simp [ho]
  have hold : ∀ o' q, (dev.desc o').swDescChan = some q → q < dev.next :=
    fun o' q hq => h.fresh q (h.live o' q hq)
  refine ⟨⟨?_, ?_, ?_, ?_⟩, ?_, ?_, ?_, ?_, ?_, ?_⟩
  · intro o' q hq
    rcases (hsw o' q).mp hq with ⟨rfl, rfl⟩ | ⟨-, hq⟩
    · exact ⟨s, _, (hmem s _).mpr (.inr ⟨rfl, rfl⟩), rfl⟩
    · obtain ⟨s', ch, hch, rfl⟩ := h.live o' q hq
      exact ⟨s', ch, (hmem s' ch).mpr (.inl hch), rfl⟩
  · intro o' o'' q hq hq'
    rcases (hsw o' q).mp hq with ⟨ho, hr⟩ | ⟨-, hr⟩ <;>
      rcases (hsw o'' q).mp hq' with ⟨ho', hr'⟩ | ⟨-, hr'⟩
    · exact ho.trans ho'.symm
    · exact absurd (hold o'' q hr') (hr ▸ lt_irrefl _)
    · exact absurd (hold o' q hr) (hr' ▸ lt_irrefl _)
    · exact h.inj o' o'' q hr hr'
  · rintro q ⟨s', ch, hch, rfl⟩
    show ch.ref < dev₁.next
    rw [hnext]
    rcases (hmem s' ch).mp hch with hch | ⟨-, rfl⟩
    · exact Nat.lt_succ_of_lt (h.fresh _ ⟨s', ch, hch, rfl⟩)
    · exact Nat.lt_succ_self _
  · subst hdev₁
    exact h.source
  · subst hdev₁
    rfl
  · subst hdev₁
    rfl
  · intro o' ho
    rw [Device.setDesc_desc_ne _ _ ho, hdesc]
  · rw [Device.setDesc_desc, hd]
  · intro hnone hown s' ch hch
    rw [hsw]
    rcases (hmem s' ch).mp hch with hch | ⟨-, rfl⟩
    · refine .inr ⟨?_, hown s' ch hch⟩
      intro ho
      have hr := hown s' ch hch
      rw [ho, hnone] at hr
      exact nomatch hr
    · exact .inl ⟨rfl, rfl⟩
  · subst hdev₁
    exact fun _ => .inl

theorem descChannelInit_quiet {dev : Device} (h : Pointers dev) {o : DescId} {r : Ref}
    (hr : (dev.desc o).swDescChan = some r) (setPid setCb : Prop) [Decidable setPid]
    [Decidable setCb] (pid : UInt16) (asIs : Bool) (scb : Int) :
    ∃ dev', ((if setPid then descChannelSetPid r pid dev else some dev).bind fun dev =>
        (if setCb then descChannelSetCb r dev else some dev).bind fun dev =>
        descChannelSetScb r asIs scb dev) = some dev' ∧ Quiet L dev dev' := by
  obtain ⟨dev₁, h1, hq1⟩ : ∃ dev₁,
      (if setPid then descChannelSetPid r pid dev else some dev) = some dev₁ ∧ Quiet L dev dev₁ := by
    split
    · exact descChannelSetPid_quiet pid (h.live o r hr)
    · exact ⟨dev, rfl, .refl dev⟩
  have hr1 : dev₁.Linked r := (hq1.pointers h).live o r (hq1.desc ▸ hr)
  obtain ⟨dev₂, h2, hq2⟩ : ∃ dev₂,
      (if setCb then descChannelSetCb r dev₁ else some dev₁) = some dev₂ ∧ Quiet L dev₁ dev₂ := by
    split
    · exact descChannelSetCb_quiet hr1
    · exact ⟨dev₁, rfl, .refl dev₁⟩
  have hq := hq1.trans hq2
  obtain ⟨dev₃, h3, hq3⟩ :=
    descChannelSetScb_quiet asIs scb ((hq.pointers h).live o r (hq.desc ▸ hr))
  refine ⟨dev₃, ?_, hq.trans hq3⟩
  rw [h1, Option.bind_some, h2, Option.bind_some, h3]

theorem descSetChan_spec (fifos : List AsyncFifo) {dev : Device} (h : Pointers dev)
    (o : DescId) (s : StreamId) :
    ∃ dev', descSetChan fifos o s dev = some dev' ∧
      Touches o (fun d => d.algo.isCsa = true ∨ d.swDescChan = none)
        (SetOn fifos (streamSource s)) L dev dev' := by
  unfold descSetChan
  dsimp only
  split
  · rename_i hcsa
    obtain ⟨hq, hchan⟩ := hwdmxDescAllocChannel_quiet (L := L) fifos (streamSource s) dev
    generalize hwdmxDescAllocChannel fifos (streamSource s) dev = p at hq hchan ⊢
    obtain ⟨dev₁, chan⟩ := p
    have ht : Touches o (fun d => d.algo.isCsa = true ∨ d.swDescChan = none)
        (SetOn fifos (streamSource s)) L dev
        (dev₁.setDesc o { dev.desc o with hwDescChan := chan }) := by
      refine ⟨(hq.pointers h).setDesc ?_, hq.source, hq.keys, ?_, ?_, ?_, hq.refs⟩
      · rw [hq.desc]
      · intro o' ho
        rw [Device.setDesc_desc_ne _ _ ho, hq.desc]
      · rw [Device.setDesc_desc, SetOn, if_pos hcsa]
        exact ⟨chan, rfl, hchan⟩
      · intro _ ho
        apply (hq.owned ho).setDesc
        rw [hq.desc]
    refine ⟨_, rfl, ?_⟩
    dsimp only
    split
    · exact ht.quiet (hwdmxDescChannelSetPid_quiet _ _ _)
    · exact ht
  · rename_i hcsa
    have ht := descramblerAllocChannel_spec (L := L) h s o
    obtain ⟨dev', h1, hq⟩ := descChannelInit_quiet ht.pointers (by rw [ht.this])
      ((dev.desc o).pid ≠ 0x1fff) ((dev.desc o).algo = .aesCbcClrEnd) (dev.desc o).pid
      (dev.desc o).scbAsIs (dev.desc o).scbValue
    refine ⟨dev', h1, { (ht.quiet hq) with this := ?_, owned := ?_ }⟩
    · rw [SetOn, if_neg hcsa]
      exact ⟨dev.next, (ht.quiet hq).this⟩
    · exact fun hp => (ht.quiet hq).owned (hp.resolve_left hcsa)

theorem streamSource_streamGet {source : DemuxSource} {s : StreamId}
    (h : streamGet source = some s) : streamSource s = source := by
  cases source with
  | dma i =>
    cases h
    rfl
  | frontend i =>
    unfold streamGet at h
    dsimp only at h
    split at h
    · cases h
      rfl
    · exact nomatch h

/-- The keys that are loaded once the channel is there. -/
theorem setOn_loads {fifos : List AsyncFifo} {source : DemuxSource} {d d' : Descrambler}
    (h : SetOn fifos source d d') (parity : KeyParity) (k : KeyId) (hcsa : d'.algo.isCsa = true)
    (hsw : d'.swDescChan = none) (hhw : d'.hwDescChan.isSome)
    (hp : parity = .oddKey ∨ parity = .evenKey) (hk : d'.keyId parity = some k) :
    d.SetLoads fifos source k := by
  unfold SetOn at h
  split at h
  · obtain ⟨chan, rfl, hchan⟩ := h
    refine ⟨hcsa, hsw, hchan ▸ hhw, ?_⟩
    rcases hp with rfl | rfl
    · exact .inl hk
    · exact .inr hk
  · obtain ⟨r, rfl⟩ := h
    exact nomatch hsw

theorem descSet_spec (fifos : List AsyncFifo) {dev : Device} (h : Pointers dev) (o : DescId)
    (s : StreamId) :
    ∃ dev', descSet fifos o s dev = some dev' ∧
      Touches o (fun d => d.algo.isCsa = true ∨ d.swDescChan = none)
        (SetOn fifos (streamSource s)) ((dev.desc o).SetLoads fifos (streamSource s)) dev dev' := by
  obtain ⟨dev₁, h1, ht1⟩ := descSetChan_spec
    (L := (dev.desc o).SetLoads fifos (streamSource s)) fifos h o s
  obtain ⟨dev₂, h2, hq2⟩ := descKeySets_quiet o
    [.evenKey, .evenIv, .oddKey, .oddIv, .zeroKey, .zeroIv]
    (setOn_loads ht1.this) ht1.pointers rfl
  have ht2 := ht1.quiet hq2
  obtain ⟨dev₃, h3, hq3⟩ : ∃ dev₃, descEnable o dev₂ = some dev₃ ∧
      Quiet ((dev.desc o).SetLoads fifos (streamSource s)) dev₂ dev₃ := by
    unfold descEnable
    dsimp only
    split
    · exact ⟨dev₂, rfl, .refl dev₂⟩
    · rename_i hcsa
      have hset := ht2.this
      unfold SetOn at hset
      split at hset
      · rename_i hcsa'
        obtain ⟨chan, hd, -⟩ := hset
        rw [hd] at hcsa
        exact absurd hcsa' hcsa
      · obtain ⟨r, hd⟩ := hset
        have hr : (dev₂.desc o).swDescChan = some r := by rw [hd]
        rw [hr]
        exact descChannelEnable_quiet (ht2.pointers.live o r hr)
  refine ⟨dev₃, ?_, ht2.quiet hq3⟩
  unfold descSet
  rw [h1]
  simp only [bind, Option.bind_some, h2, h3]

end

/-! ## Calls on the descramblers of a demux -/

/-- A call on the used descramblers among `l` of a demux. -/
structure Sweeps (ca : CaId) (l : List ChanId) (pre : Descrambler → Prop)
    (R : Descrambler → Descrambler → Prop) (L : Descrambler → KeyId → Prop)
    (dev dev' : Device) : Prop where
  pointers : Pointers dev'
  source : dev'.source = dev.source
  keys : dev'.keys = dev.keys
  used : ∀ i ∈ l, (dev.desc (ca, i)).used = true → R (dev.desc (ca, i)) (dev'.desc (ca, i))
  frame : ∀ o, (∀ i ∈ l, o = (ca, i) → (dev.desc o).used = false) → dev'.desc o = dev.desc o
  owned : (∀ i ∈ l, (dev.desc (ca, i)).used = true → pre (dev.desc (ca, i))) →
    Owned dev → Owned dev'
  refs : ∀ k, dev'.HwReferred k → dev.HwReferred k ∨
    ∃ i ∈ l, (dev.desc (ca, i)).used = true ∧ L (dev.desc (ca, i)) k

theorem forUsed_list_spec {body : DescId → Device → Option Device} {pre : Descrambler → Prop}
    {R : Descrambler → Descrambler → Prop} {L : Descrambler → KeyId → Prop} (ca : CaId)
    (hbody : ∀ o dev, Pointers dev → ∃ dev', body o dev = some dev' ∧
      Touches o pre R (L (dev.desc o)) dev dev') :
    ∀ (l : List ChanId), l.Nodup → ∀ {dev : Device}, Pointers dev → ∃ dev',
      l.foldlM (fun dev i => if (dev.desc (ca, i)).used then body (ca, i) dev else some dev) dev =
        some dev' ∧ Sweeps ca l pre R L dev dev' := by
  intro l
  induction l with
  | nil =>
    intro _ dev h
    exact ⟨dev, rfl, h, rfl, rfl, by simp, fun _ _ => rfl, fun _ ho => ho, fun _ => .inl⟩
  | cons i l ih =>
    intro hl dev h
    obtain ⟨hi, hl⟩ := List.nodup_cons.mp hl
    have hne : ∀ j ∈ l, (ca, j) ≠ ((ca, i) : DescId) := by
      intro j hj he
      exact hi ((Prod.mk.inj he).2 ▸ hj)
    by_cases hu : (dev.desc (ca, i)).used = true
    · obtain ⟨dev₁, h1, ht⟩ := hbody (ca, i) dev h
      obtain ⟨dev₂, h2, hs⟩ := ih hl ht.pointers
      have hout : dev₂.desc (ca, i) = dev₁.desc (ca, i) :=
        hs.frame _ fun j hj he => absurd he.symm (hne j hj)
      refine ⟨dev₂, ?_, hs.pointers, hs.source.trans ht.source, hs.keys.trans ht.keys,
        ?_, ?_, ?_, ?_⟩
      · rw [List.foldlM_cons, if_pos hu, h1]
        exact h2
      · intro j hj huj
        rcases List.mem_cons.mp hj with rfl | hj
        · rw [hout]
          exact ht.this
        · have hj' := ht.frame _ (hne j hj)
          rw [← hj']
          exact hs.used j hj (hj' ▸ huj)
      · intro o ho
        have hoi : o ≠ (ca, i) := by
          rintro rfl
          exact absurd hu (by simp [ho i List.mem_cons_self rfl])
        have ho' := ht.frame o hoi
        rw [hs.frame o fun j hj he => ho' ▸ ho j (List.mem_cons_of_mem _ hj) he, ho']
      · intro hpre hown
        refine hs.owned ?_ (ht.owned (hpre i List.mem_cons_self hu) hown)
        intro j hj huj
        rw [ht.frame _ (hne j hj)] at huj ⊢
        exact hpre j (List.mem_cons_of_mem _ hj) huj
      · intro k hk
        rcases hs.refs k hk with hk | ⟨j, hj, huj, hl⟩
        · exact (ht.refs k hk).imp_right fun hl => ⟨i, List.mem_cons_self, hu, hl⟩
        · rw [ht.frame _ (hne j hj)] at huj hl
          exact .inr ⟨j, List.mem_cons_of_mem _ hj, huj, hl⟩
    · obtain ⟨dev₂, h2, hs⟩ := ih hl h
      refine ⟨dev₂, ?_, hs.pointers, hs.source, hs.keys, ?_, ?_, ?_, ?_⟩
      · rw [List.foldlM_cons, if_neg hu]
        exact h2
      · intro j hj huj
        rcases List.mem_cons.mp hj with rfl | hj
        · exact absurd huj hu
        · exact hs.used j hj huj
      · exact fun o ho => hs.frame o fun j hj he => ho j (List.mem_cons_of_mem _ hj) he
      · exact fun hpre => hs.owned fun j hj => hpre j (List.mem_cons_of_mem _ hj)
      · intro k hk
        apply (hs.refs k hk).imp_right
        rintro ⟨j, hj, h⟩
        exact ⟨j, List.mem_cons_of_mem _ hj, h⟩

theorem forUsed_spec {body : DescId → Device → Option Device} {pre : Descrambler → Prop}
    {R : Descrambler → Descrambler → Prop} {L : Descrambler → KeyId → Prop} (ca : CaId)
    (hbody : ∀ o dev, Pointers dev → ∃ dev', body o dev = some dev' ∧
      Touches o pre R (L (dev.desc o)) dev dev')
    {dev : Device} (h : Pointers dev) :
    ∃ dev', forUsed ca body dev = some dev' ∧ Sweeps ca (List.finRange 32) pre R L dev dev' :=
  forUsed_list_spec ca hbody _ (List.nodup_finRange 32) h

end MediaModules.T5d
