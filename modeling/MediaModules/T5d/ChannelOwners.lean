import Mathlib.Tactic.Common
import MediaModules.T5d.Channels

/-!
# The channel of a descrambler

An unused descrambler owns no channel; a used one has a hardware channel when its algorithm
is one of the CSA ones and a software channel otherwise. Every call is classified by one
lemma: it is defined, keeps `Pointers`, and from a device in order leads to one in order
exactly when it meets `ChannelKept`.
-/
namespace MediaModules.T5d

open MediaModules.Lib.Run

/-- The channels of every descrambler are the ones it should have. -/
structure ChannelsOk (dev : Device) : Prop where
  unused : ∀ o, (dev.desc o).used = false →
    (dev.desc o).swDescChan = none ∧ (dev.desc o).hwDescChan = none ∧
      ∀ s, ∀ ch ∈ dev.chanList s, ch.owner ≠ o
  hardware : ∀ o, (dev.desc o).used = true → (dev.desc o).algo.isCsa = true →
    (dev.desc o).hwDescChan ≠ none ∧ (dev.desc o).swDescChan = none
  software : ∀ o, (dev.desc o).used = true → (dev.desc o).algo.isCsa = false →
    (dev.desc o).swDescChan ≠ none ∧ (dev.desc o).hwDescChan = none

/-- What a call has to meet so that the channels stay in order: an algorithm is not changed
for one with the other kind of channel, and a hardware channel is asked for only of a source
that some hardware demux serves. -/
def ChannelKept (fifos : List AsyncFifo) (dev : Device) : Op → Prop
  | .setCaAlgo ca chan algo =>
    (dev.desc (ca, chan)).used = true → algo.isCsa = (dev.desc (ca, chan)).algo.isCsa
  | .allocCaChan ca _ algo =>
    algo.isCsa = true → (∃ i, (dev.desc (ca, i)).used = false) →
      (hwDev fifos (dev.source ca)).isSome
  | .setDemuxSource ca source =>
    dev.source ca ≠ source →
      (∃ i, (dev.desc (ca, i)).used = true ∧ (dev.desc (ca, i)).algo.isCsa = true) →
      (hwDev fifos source).isSome
  | _ => True

/-- The descrambler calls, with a source that has a stream. -/
def Op.InRange : Op → Prop
  | .allocCaChan .. | .freeCaChan .. | .setCaKey .. | .setCaAlgo .. | .setCaScb ..
  | .clearCa .. => True
  | .setDemuxSource _ source => (streamGet source).isSome
  | .allocKey .. | .freeKey .. | .configKey .. | .setKey .. | .clearKeys => False

/-- The keys a call loads into hardware channels. -/
def Loaded (fifos : List AsyncFifo) (dev : Device) : Op → KeyId → Prop
  | .setCaKey ca chan type key, k =>
    k = key ∧ (dev.desc (ca, chan)).used = true ∧ (dev.desc (ca, chan)).algo.isCsa = true ∧
      (dev.desc (ca, chan)).swDescChan = none ∧
      (∃ c, (dev.desc (ca, chan)).hwDescChan = some c ∧ (dev.hwChan c).used = true) ∧
      (type = .oddKey ∨ type = .evenKey)
  | .setDemuxSource ca source, k =>
    dev.source ca ≠ source ∧
      ∃ i, (dev.desc (ca, i)).used = true ∧ (dev.desc (ca, i)).SetLoads fifos source k
  | _, _ => False

/-- The channels of one descrambler. -/
structure Fits (d : Descrambler) : Prop where
  sw : d.swDescChan.isSome = (d.used && !d.algo.isCsa)
  hw : d.hwDescChan.isSome = (d.used && d.algo.isCsa)

/-- The invariant behind `ChannelsOk`. -/
structure InOrder (dev : Device) : Prop where
  pointers : Pointers dev
  owned : Owned dev
  fits : ∀ o, Fits (dev.desc o)

theorem InOrder.channelsOk {dev : Device} (h : InOrder dev) : ChannelsOk dev := by
  refine ⟨?_, ?_, ?_⟩
  · intro o hu
    have hsw : (dev.desc o).swDescChan = none := by simpa [hu] using (h.fits o).sw
    refine ⟨hsw, by simpa [hu] using (h.fits o).hw, ?_⟩
    rintro s ch hch rfl
    rw [h.owned s ch hch] at hsw
    exact nomatch hsw
  · intro o hu ha
    have hsw := (h.fits o).sw
    have hhw := (h.fits o).hw
    simp only [hu, ha, Bool.not_true, Bool.and_false, Bool.and_true] at hsw hhw
    exact ⟨Option.isSome_iff_ne_none.mp hhw, Option.not_isSome_iff_eq_none.mp (by simp [hsw])⟩
  · intro o hu ha
    have hsw := (h.fits o).sw
    have hhw := (h.fits o).hw
    simp only [hu, ha, Bool.not_false, Bool.and_false, Bool.and_true] at hsw hhw
    exact ⟨Option.isSome_iff_ne_none.mp hsw, Option.not_isSome_iff_eq_none.mp (by simp [hhw])⟩

theorem ChannelsOk.fits {dev : Device} (h : ChannelsOk dev) (o : DescId) :
    Fits (dev.desc o) := by
  cases hu : (dev.desc o).used with
  | false =>
    obtain ⟨hsw, hhw, -⟩ := h.unused o hu
    exact ⟨by simp [hsw, hu], by simp [hhw, hu]⟩
  | true =>
    cases ha : (dev.desc o).algo.isCsa with
    | false =>
      obtain ⟨hsw, hhw⟩ := h.software o hu ha
      exact ⟨by simp [Option.isSome_iff_ne_none.mpr hsw, hu, ha], by simp [hhw, hu, ha]⟩
    | true =>
      obtain ⟨hhw, hsw⟩ := h.hardware o hu ha
      exact ⟨by simp [hsw, hu, ha], by simp [Option.isSome_iff_ne_none.mpr hhw, hu, ha]⟩

/-! ## One descrambler -/

@[simp] theorem Descrambler.cleared_used (d : Descrambler) : d.cleared.used = d.used := by
  unfold Descrambler.cleared
  split <;> rfl

@[simp] theorem Descrambler.cleared_algo (d : Descrambler) : d.cleared.algo = d.algo := by
  unfold Descrambler.cleared
  split <;> rfl

theorem Fits.cleared {d : Descrambler} (h : Fits d) :
    d.cleared.swDescChan = none ∧ d.cleared.hwDescChan = none := by
  obtain ⟨hsw, hhw⟩ := h
  unfold Descrambler.cleared
  cases ha : d.algo.isCsa <;> simp_all

/-- Only the usage, the algorithm and the channels matter. -/
theorem Fits.congr {d d' : Descrambler} (h : Fits d) (hu : d'.used = d.used)
    (ha : d'.algo = d.algo) (hsw : d'.swDescChan = d.swDescChan)
    (hhw : d'.hwDescChan = d.hwDescChan) : Fits d' := by
  refine ⟨?_, ?_⟩
  · rw [hsw, hu, ha]
    exact h.sw
  · rw [hhw, hu, ha]
    exact h.hw

/-- A free clears the software channel of no descrambler with a CSA algorithm. -/
theorem setLoads_of_cleared {fifos : List AsyncFifo} {source : DemuxSource} {d : Descrambler}
    {k : KeyId} (h : d.cleared.SetLoads fifos source k) : d.SetLoads fifos source k := by
  unfold Descrambler.SetLoads at h
  rw [Descrambler.cleared_algo] at h
  unfold Descrambler.cleared at h
  rw [if_pos h.1] at h
  exact h

/-- A used descrambler without channels is in order once it is set on a source, unless it
asks for a hardware channel of a source that has none. -/
theorem SetOn.fits_iff {fifos : List AsyncFifo} {source : DemuxSource} {d d' : Descrambler}
    (h : SetOn fifos source d d') (hu : d.used = true) (hsw : d.swDescChan = none)
    (hhw : d.hwDescChan = none) :
    Fits d' ↔ (d.algo.isCsa = true → (hwDev fifos source).isSome) := by
  unfold SetOn at h
  split at h
  · rename_i ha
    obtain ⟨chan, rfl, hchan⟩ := h
    rw [← hchan]
    constructor
    · rintro ⟨-, h2⟩ -
      simpa [hu, ha] using h2
    · exact fun hs => ⟨by simp [hsw, ha], by simp [hs ha, hu, ha]⟩
  · rename_i ha
    obtain ⟨r, rfl⟩ := h
    exact ⟨fun _ ha' => absurd ha' ha, fun _ => ⟨by simp [hu, ha], by simp [hhw, ha]⟩⟩

/-! ## The calls -/

/-- What a call does to a device: it keeps the pointers and loads only keys of `L`, and from a
device in order it leads to one in order exactly when `ok` holds. -/
structure Classified (ok : Prop) (L : KeyId → Prop) (dev dev' : Device) : Prop where
  pointers : Pointers dev'
  keys : dev'.keys = dev.keys
  owned : InOrder dev → Owned dev'
  fits : InOrder dev → ((∀ o, Fits (dev'.desc o)) ↔ ok)
  refs : ∀ k, dev'.HwReferred k → dev.HwReferred k ∨ L k

theorem Classified.of_touches {o : DescId} {pre : Descrambler → Prop}
    {R : Descrambler → Descrambler → Prop} {ok : Prop} {L : KeyId → Prop} {dev dev' : Device}
    (h : Touches o pre R L dev dev') (hpre : InOrder dev → pre (dev.desc o))
    (hok : InOrder dev → R (dev.desc o) (dev'.desc o) → (Fits (dev'.desc o) ↔ ok)) :
    Classified ok L dev dev' := by
  refine ⟨h.pointers, h.keys, fun hi => h.owned (hpre hi) hi.owned, fun hi => ?_, h.refs⟩
  rw [← hok hi h.this]
  refine ⟨fun hf => hf o, fun hf o' => ?_⟩
  by_cases ho : o' = o
  · exact ho ▸ hf
  · rw [h.frame o' ho]
    exact hi.fits o'

/-- A used descrambler is written, its usage and its channels apart, and its channel follows. -/
theorem Classified.of_write {o : DescId} {d : Descrambler} {ok : Prop} {L : KeyId → Prop}
    {dev dev' : Device} (h : Pointers dev) (hsw : d.swDescChan = (dev.desc o).swDescChan)
    (hq : Quiet L (dev.setDesc o d) dev') (hok : InOrder dev → (Fits d ↔ ok)) :
    Classified ok L dev dev' := by
  have ht : Touches o (fun _ => True) (fun _ d' => d' = d) L dev (dev.setDesc o d) :=
    .write h hsw rfl
  refine .of_touches (ht.quiet hq) (fun _ => trivial) fun hi hd => ?_
  rw [hd]
  exact hok hi

section

variable {fifos : List AsyncFifo} {L : KeyId → Prop} {dev : Device}

/-- A call that does nothing. -/
theorem Classified.same {ok : Prop} (h : Pointers dev) (hok : ok) : Classified ok L dev dev :=
  ⟨h, rfl, InOrder.owned, fun hi => iff_of_true hi.fits hok, fun _ => .inl⟩

theorem t5dAllocCaChan_spec (h : Pointers dev) (ca : CaId) (pid : UInt16) (algo : CaAlgo) :
    ∃ dev' ret, t5dAllocCaChan fifos ca pid algo dev = some (dev', ret) ∧
      Classified (ChannelKept fifos dev (.allocCaChan ca pid algo)) L dev dev' := by
  unfold t5dAllocCaChan
  cases hfind : (List.finRange 32).find? fun i => !(dev.desc (ca, i)).used with
  | none =>
    have hnone : ¬ ∃ i, (dev.desc (ca, i)).used = false := by
      rintro ⟨i, hi⟩
      have := List.find?_eq_none.mp hfind i (List.mem_finRange i)
      simp [hi] at this
    exact ⟨dev, -1, rfl, .same h fun _ hfree => absurd hfree hnone⟩
  | some i =>
    have hfree : (dev.desc (ca, i)).used = false := by
      simpa using List.find?_some hfind
    obtain ⟨s, hs⟩ := Option.isSome_iff_exists.mp (h.source ca)
    generalize hd : ({ dev.desc (ca, i) with
      used := true, pid := pid, algo := algo, scbAsIs := false, scbValue := 0
      keyId := fun _ => none } : Descrambler) = d
    have hsw : d.swDescChan = (dev.desc (ca, i)).swDescChan := hd ▸ rfl
    have hw : Touches (ca, i) (fun _ => True) (fun _ d' => d' = d) L dev
        (dev.setDesc (ca, i) d) := .write h hsw rfl
    obtain ⟨dev', h1, ht⟩ := descSet_spec fifos hw.pointers (ca, i) s
    refine ⟨dev', i.val, ?_, ?_⟩
    · simp only [hs, hd, h1, bind, Option.bind_some]
    · have hempty : InOrder dev → d.swDescChan = none ∧ d.hwDescChan = none := by
        intro hi
        obtain ⟨hsw', hhw, -⟩ := hi.channelsOk.unused (ca, i) hfree
        exact ⟨hsw.trans hsw', hd ▸ hhw⟩
      have htouch : Touches (ca, i) (fun _ => d.swDescChan = none)
          (fun _ d' => SetOn fifos (streamSource s) d d') L dev dev' := by
        refine ⟨ht.pointers, ht.source, ht.keys, ?_, ?_, ?_, ?_⟩
        · exact fun o' ho => (ht.frame o' ho).trans (hw.frame o' ho)
        · simpa using ht.this
        · exact fun hn ho => ht.owned (by simp [hn]) (hw.owned trivial ho)
        · intro k hk
          refine (ht.refs k hk).imp_right ?_
          rw [Device.setDesc_desc, ← hd]
          rintro ⟨-, -, -, hk | hk⟩ <;> exact nomatch hk
      refine .of_touches htouch (fun hi => (hempty hi).1) fun hi hset => ?_
      rw [hset.fits_iff (hd ▸ rfl) (hempty hi).1 (hempty hi).2, streamSource_streamGet hs]
      have halgo : d.algo = algo := hd ▸ rfl
      rw [halgo]
      exact ⟨fun hc ha _ => hc ha, fun hc ha => hc ha ⟨i, hfree⟩⟩

theorem t5dFreeCaChan_spec (h : Pointers dev) (ca : CaId) (chan : ChanId) :
    ∃ dev' ret, t5dFreeCaChan ca chan dev = some (dev', ret) ∧ Classified True L dev dev' := by
  unfold t5dFreeCaChan
  split
  · obtain ⟨dev', h1, ht⟩ := descClear_spec h (ca, chan)
    have ht' : Touches (ca, chan) (fun _ => True) (fun d d' => d' = { d.cleared with used := false })
        L dev (dev'.setDesc (ca, chan) { dev'.desc (ca, chan) with used := false }) :=
      ht.setDesc rfl (by rw [ht.this])
    refine ⟨_, 0, ?_, .of_touches ht' (fun _ => trivial) fun hi hd => iff_true_intro ?_⟩
    · simp only [h1, bind, Option.bind_some]
    · obtain ⟨hsw, hhw⟩ := (hi.fits (ca, chan)).cleared
      rw [hd]
      exact ⟨by simp [hsw], by simp [hhw]⟩
  · exact ⟨dev, -1, rfl, .same h trivial⟩

theorem t5dSetCaKey_spec (h : Pointers dev) (ca : CaId) (chan : ChanId) (type : KeyParity)
    (key : KeyId) :
    ∃ dev' ret, t5dSetCaKey ca chan type key dev = some (dev', ret) ∧
      Classified True (Loaded fifos dev (.setCaKey ca chan type key)) dev dev' := by
  unfold t5dSetCaKey
  dsimp only
  split
  · rename_i hu
    generalize hd : ({ dev.desc (ca, chan) with
      keyId := Function.update (dev.desc (ca, chan)).keyId type (some key) } : Descrambler) = d
    have hsw : d.swDescChan = (dev.desc (ca, chan)).swDescChan := hd ▸ rfl
    have hkey : d.keyId type = some key := by
      subst hd
      exact Function.update_self ..
    have hL : ∀ k, Loads (dev.setDesc (ca, chan) d) (ca, chan) type k →
        Loaded fifos dev (.setCaKey ca chan type key) k := by
      rintro k ⟨hcsa, hnone, hc, hp, hk⟩
      rw [Device.setDesc_desc] at hcsa hnone hc hk
      rw [hkey] at hk
      subst hd
      exact ⟨(Option.some.inj hk).symm, hu, hcsa, hnone, hc, hp⟩
    obtain ⟨dev', h1, hq⟩ := descKeySet_quiet (h.setDesc hsw) (ca, chan) type hL
    refine ⟨dev', 0, ?_, .of_write h hsw hq fun hi => iff_true_intro ?_⟩
    · simp only [h1, bind, Option.bind_some]
    · subst hd
      exact (hi.fits (ca, chan)).congr rfl rfl rfl rfl
  · exact ⟨dev, -1, rfl, .same h trivial⟩

theorem t5dSetCaAlgo_spec (h : Pointers dev) (ca : CaId) (chan : ChanId) (algo : CaAlgo) :
    ∃ dev' ret, t5dSetCaAlgo ca chan algo dev = some (dev', ret) ∧
      Classified (ChannelKept fifos dev (.setCaAlgo ca chan algo)) L dev dev' := by
  unfold t5dSetCaAlgo
  dsimp only
  split
  · rename_i hu
    generalize hd : ({ dev.desc (ca, chan) with algo := algo } : Descrambler) = d
    have hsw : d.swDescChan = (dev.desc (ca, chan)).swDescChan := hd ▸ rfl
    have hfits : InOrder dev → (Fits d ↔ ChannelKept fifos dev (.setCaAlgo ca chan algo)) := by
      intro hi
      obtain ⟨h1, h2⟩ := hi.fits (ca, chan)
      subst hd
      constructor
      · rintro ⟨h1', h2'⟩ -
        simpa [hu] using h2'.symm.trans h2
      · intro ha
        rw [← ha hu] at h1 h2
        exact ⟨h1, h2⟩
    have hp := h.setDesc hsw
    have hw : ∀ dev', Quiet L (dev.setDesc (ca, chan) d) dev' →
        Classified (ChannelKept fifos dev (.setCaAlgo ca chan algo)) L dev dev' :=
      fun dev' hq => .of_write h hsw hq hfits
    split
    · exact ⟨_, 0, rfl, hw _ (.refl _)⟩
    · split
      · exact ⟨_, -1, rfl, hw _ (.refl _)⟩
      · rename_i r hr
        split
        · obtain ⟨dev', h1, hq⟩ := descChannelSetCb_quiet
            (hp.live (ca, chan) r (by rw [Device.setDesc_desc, hsw, hr]))
          refine ⟨dev', 0, ?_, hw _ hq⟩
          rw [h1]
          rfl
        · exact ⟨_, -1, rfl, hw _ (.refl _)⟩
  · rename_i hu
    exact ⟨dev, -1, rfl, .same h fun hu' => absurd hu' hu⟩

theorem t5dSetCaScb_spec (h : Pointers dev) (ca : CaId) (chan : ChanId) (asIs : Bool)
    (scb : Int) :
    ∃ dev' ret, t5dSetCaScb ca chan asIs scb dev = some (dev', ret) ∧
      Classified True L dev dev' := by
  unfold t5dSetCaScb
  dsimp only
  split
  · generalize hd : ({ dev.desc (ca, chan) with scbAsIs := asIs, scbValue := scb } :
      Descrambler) = d
    have hsw : d.swDescChan = (dev.desc (ca, chan)).swDescChan := hd ▸ rfl
    have hp := h.setDesc hsw
    have hw : ∀ dev', Quiet L (dev.setDesc (ca, chan) d) dev' →
        Classified True L dev dev' := by
      refine fun dev' hq => .of_write h hsw hq fun hi => iff_true_intro ?_
      subst hd
      exact (hi.fits (ca, chan)).congr rfl rfl rfl rfl
    split
    · exact ⟨_, 0, rfl, hw _ (hwdmxDescChannelSetScb_quiet _ _ _ _)⟩
    · split
      · exact ⟨_, -1, rfl, hw _ (.refl _)⟩
      · rename_i r hr
        obtain ⟨dev', h1, hq⟩ := descChannelSetScb_quiet asIs scb
          (hp.live (ca, chan) r (by rw [Device.setDesc_desc, hsw, hr]))
        refine ⟨dev', 0, ?_, hw _ hq⟩
        rw [h1]
        rfl
  · exact ⟨dev, -1, rfl, .same h trivial⟩

/-- After a call on the used descramblers of a demux, every descrambler is one of those or as
before. -/
theorem Sweeps.cases {ca : CaId} {pre : Descrambler → Prop} {R : Descrambler → Descrambler → Prop}
    {L : Descrambler → KeyId → Prop} {dev' : Device}
    (h : Sweeps ca (List.finRange 32) pre R L dev dev') (o : DescId) :
    (o.1 = ca ∧ (dev.desc o).used = true ∧ R (dev.desc o) (dev'.desc o)) ∨
      ((o.1 = ca → (dev.desc o).used = false) ∧ dev'.desc o = dev.desc o) := by
  obtain ⟨c, i⟩ := o
  by_cases hc : c = ca ∧ (dev.desc (c, i)).used = true
  · obtain ⟨rfl, hu⟩ := hc
    exact .inl ⟨rfl, hu, h.used i (List.mem_finRange i) hu⟩
  · have hu : c = ca → (dev.desc (c, i)).used = false := by
      intro he
      simpa [he] using hc
    exact .inr ⟨hu, h.frame (c, i) fun j _ he => hu (Prod.mk.inj he).1⟩

theorem t5dClearCa_spec (h : Pointers dev) (ca : CaId) :
    ∃ dev', t5dClearCa ca dev = some dev' ∧ Classified True L dev dev' := by
  have hbody : ∀ o dev, Pointers dev → ∃ dev', (do
      let dev ← descClear o dev
      some (dev.setDesc o { dev.desc o with used := false })) = some dev' ∧
      Touches o (fun _ => True) (fun d d' => d' = { d.cleared with used := false }) L dev dev' := by
    intro o dev h
    obtain ⟨dev', h1, ht⟩ := descClear_spec h o
    refine ⟨_, ?_, ht.setDesc (d := { dev'.desc o with used := false }) rfl ?_⟩
    · simp only [h1, bind, Option.bind_some]
    · rw [ht.this]
  obtain ⟨dev', h1, hs⟩ := forUsed_spec (L := fun _ => L) ca hbody h
  refine ⟨dev', h1, hs.pointers, hs.keys, fun hi => hs.owned (fun _ _ _ => trivial) hi.owned,
    fun hi => iff_true_intro fun o => ?_, fun k hk => ?_⟩
  · rcases hs.cases o with ⟨-, -, hd⟩ | ⟨-, hd⟩
    · obtain ⟨hsw, hhw⟩ := (hi.fits o).cleared
      rw [hd]
      exact ⟨by simp [hsw], by simp [hhw]⟩
    · rw [hd]
      exact hi.fits o
  · exact (hs.refs k hk).imp_right fun ⟨_, _, _, hl⟩ => hl

theorem t5dSetDemuxSource_spec (h : Pointers dev) (ca : CaId) (source : DemuxSource)
    (hsource : (streamGet source).isSome) :
    ∃ dev', t5dSetDemuxSource fifos ca source dev = some dev' ∧
      Classified (ChannelKept fifos dev (.setDemuxSource ca source))
        (Loaded fifos dev (.setDemuxSource ca source)) dev dev' := by
  unfold t5dSetDemuxSource
  split
  · rename_i hne
    obtain ⟨s, hs⟩ := Option.isSome_iff_exists.mp hsource
    obtain ⟨dev₁, h1, hs1⟩ := forUsed_spec (L := fun _ _ => False) ca
      (fun o dev h => descClear_spec h o) h
    obtain ⟨dev₂, h2, hs2⟩ := forUsed_spec (L := Descrambler.SetLoads fifos (streamSource s)) ca
      (fun o dev h => descSet_spec fifos h o s) hs1.pointers
    have hsrc : ∀ c, (streamGet (Function.update dev₂.source ca source c)).isSome := by
      intro c
      by_cases hc : c = ca
      · subst hc
        simpa using hsource
      · rw [Function.update_of_ne hc]
        exact hs2.pointers.source c
    refine ⟨{ dev₂ with source := Function.update dev₂.source ca source }, ?_,
      ⟨hs2.pointers.live, hs2.pointers.inj, hs2.pointers.fresh, hsrc⟩,
      hs2.keys.trans hs1.keys, ?_, ?_, ?_⟩
    · simp only [h1, hs, h2, bind, Option.bind_some]
    · intro hi
      refine hs2.owned ?_ (hs1.owned (fun _ _ _ => trivial) hi.owned)
      intro i _ hu
      rcases hs1.cases (ca, i) with ⟨-, -, hd⟩ | ⟨hn, hd⟩
      · exact .inr (hd ▸ (hi.fits (ca, i)).cleared.1)
      · rw [hd, hn rfl] at hu
        exact nomatch hu
    · intro hi
      have hfits : ∀ o, Fits (dev₂.desc o) ↔
          (o.1 = ca → (dev.desc o).used = true → (dev.desc o).algo.isCsa = true →
            (hwDev fifos source).isSome) := by
        intro o
        rcases hs1.cases o with ⟨ho, hu, hd1⟩ | ⟨hn, hd1⟩
        · rcases hs2.cases o with ⟨-, -, hset⟩ | ⟨hn2, -⟩
          · rw [hd1] at hset
            obtain ⟨hsw, hhw⟩ := (hi.fits o).cleared
            rw [hset.fits_iff (by simpa using hu) hsw hhw, streamSource_streamGet hs,
              Descrambler.cleared_algo]
            exact ⟨fun hc _ _ => hc, fun hc => hc ho hu⟩
          · have hu2 := hn2 ho
            rw [hd1, Descrambler.cleared_used, hu] at hu2
            exact nomatch hu2
        · rcases hs2.cases o with ⟨ho, hu, -⟩ | ⟨-, hd2⟩
          · rw [hd1, hn ho] at hu
            exact nomatch hu
          · rw [hd2, hd1]
            apply iff_of_true (hi.fits o)
            intro ho hu
            rw [hn ho] at hu
            exact nomatch hu
      refine ⟨fun hf _ => ?_, fun hk o => (hfits o).mpr ?_⟩
      · rintro ⟨i, hu, ha⟩
        exact (hfits (ca, i)).mp (hf (ca, i)) rfl hu ha
      · intro ho hu ha
        obtain ⟨c, i⟩ := o
        obtain rfl : c = ca := ho
        exact hk hne ⟨i, hu, ha⟩
    · intro k hk
      rcases hs2.refs k hk with hk | ⟨i, -, hu, hl⟩
      · exact .inl ((hs1.refs k hk).resolve_right fun ⟨_, _, _, hf⟩ => hf)
      · rcases hs1.cases (ca, i) with ⟨-, hu1, hd⟩ | ⟨hn, hd⟩
        · rw [hd, streamSource_streamGet hs] at hl
          exact .inr ⟨hne, i, hu1, setLoads_of_cleared hl⟩
        · rw [hd, hn rfl] at hu
          exact nomatch hu
  · rename_i hsame
    exact ⟨dev, rfl, .same h fun hne => absurd hne hsame⟩

/-- Every descrambler call is defined and classified by `ChannelKept` and `Loaded`. -/
theorem step_classified (h : Pointers dev) {op : Op} (hr : op.InRange) :
    ∃ dev', step fifos dev op = some dev' ∧
      Classified (ChannelKept fifos dev op) (Loaded fifos dev op) dev dev' := by
  have hmap : ∀ {o : Option (Device × Int)} {ok : Prop} {L : KeyId → Prop},
      (∃ dev' ret, o = some (dev', ret) ∧ Classified ok L dev dev') →
        ∃ dev', o.map Prod.fst = some dev' ∧ Classified ok L dev dev' := by
    rintro o ok L ⟨dev', ret, rfl, hc⟩
    exact ⟨dev', rfl, hc⟩
  cases op with
  | allocCaChan ca pid algo => exact hmap (t5dAllocCaChan_spec h ca pid algo)
  | freeCaChan ca chan => exact hmap (t5dFreeCaChan_spec h ca chan)
  | setCaKey ca chan type key => exact hmap (t5dSetCaKey_spec h ca chan type key)
  | setCaAlgo ca chan algo => exact hmap (t5dSetCaAlgo_spec h ca chan algo)
  | setCaScb ca chan asIs scb => exact hmap (t5dSetCaScb_spec h ca chan asIs scb)
  | clearCa ca => exact t5dClearCa_spec h ca
  | setDemuxSource ca source => exact t5dSetDemuxSource_spec h ca source hr
  | allocKey | freeKey | configKey | setKey | clearKeys => exact hr.elim

end

/-! ## Runs -/

theorem init_inOrder (caAlgo : CaAlgo) (user : UserId) (keyAlgo : KeyAlgo) :
    InOrder (t5dInitDevice caAlgo user keyAlgo) where
  pointers := by
    refine ⟨fun _ _ h => (nomatch h), fun _ _ _ h => (nomatch h), ?_, fun _ => rfl⟩
    rintro r ⟨s, ch, h, -⟩
    exact nomatch h
  owned _ _ h := nomatch h
  fits _ := ⟨rfl, rfl⟩

/-- Every sequence of descrambler calls is defined. -/
theorem run_pointers (fifos : List AsyncFifo) {dev : Device} (h : Pointers dev) {ops : List Op}
    (hr : ∀ op ∈ ops, op.InRange) :
    ∃ dev', run (step fifos) dev ops = some dev' ∧ Pointers dev' := by
  induction ops generalizing dev with
  | nil => exact ⟨dev, rfl, h⟩
  | cons op ops ih =>
    obtain ⟨dev₁, h1, hc⟩ := step_classified h (hr op List.mem_cons_self)
    obtain ⟨dev₂, h2, hp⟩ := ih hc.pointers fun op hop => hr op (List.mem_cons_of_mem _ hop)
    exact ⟨dev₂, run_cons_some.mpr ⟨dev₁, h1, h2⟩, hp⟩

/-- The channels are in order all along a sequence of descrambler calls exactly when no call
moves a used descrambler to the other kind of algorithm or asks for a hardware channel of a
source that has none. -/
theorem channels_ok_iff (fifos : List AsyncFifo) (caAlgo : CaAlgo) (user : UserId)
    (keyAlgo : KeyAlgo) (ops : List Op) (hr : ∀ op ∈ ops, op.InRange) :
    (run (step fifos) (t5dInitDevice caAlgo user keyAlgo) ops).isSome ∧
      (Always (step fifos) ChannelsOk (t5dInitDevice caAlgo user keyAlgo) ops ↔
        Guarded (step fifos) (ChannelKept fifos) (t5dInitDevice caAlgo user keyAlgo) ops) := by
  have hinit := init_inOrder caAlgo user keyAlgo
  obtain ⟨dev', hrun, -⟩ := run_pointers fifos hinit.pointers hr
  refine ⟨Option.isSome_iff_exists.mpr ⟨dev', hrun⟩, ?_⟩
  refine always_iff_guarded (fun _ h => h.channelsOk) ?_ ?_ hinit hr hrun
  · intro dev op dev₁ h hop hok hstep
    obtain ⟨dev₂, h2, hc⟩ := step_classified h.pointers hop
    obtain rfl := Option.some.inj (hstep.symm.trans h2)
    exact ⟨hc.pointers, hc.owned h, (hc.fits h).mpr hok⟩
  · intro dev op dev₁ h hop hno hstep hbad
    obtain ⟨dev₂, h2, hc⟩ := step_classified h.pointers hop
    obtain rfl := Option.some.inj (hstep.symm.trans h2)
    exact hno ((hc.fits h).mp hbad.fits)

/-- A CSA2 descrambler that gets a key, changes to CSA3 and to a source with a hardware demux
and is freed. -/
theorem channels_ok_csa :
    Always (step [⟨.frontend 2, some 0⟩, ⟨.dma 1, some 1⟩]) ChannelsOk
      (t5dInitDevice .csa2 (.other 0) .aes)
      [.allocCaChan 0 0x100 .csa2, .setCaKey 0 0 .evenKey 5, .setCaAlgo 0 0 .csa3,
        .setDemuxSource 0 (.dma 1), .freeCaChan 0 0] := by
  apply (channels_ok_iff _ _ _ _ _ (by simp [Op.InRange, streamGet])).2.mpr
  refine ⟨fun _ _ => by decide, fun _ h1 => ⟨trivial, fun _ h2 => ⟨fun _ => ?_, fun _ _ =>
    ⟨fun _ _ => by decide, fun _ _ => ⟨trivial, fun _ _ => trivial⟩⟩⟩⟩⟩
  obtain rfl := Option.some.inj h1
  obtain rfl := Option.some.inj h2
  decide

/-- A descrambler allocated with a software channel, changed to CSA2 and freed keeps the
channel. -/
theorem csa_free_leaks :
    ¬ Always (step []) ChannelsOk (t5dInitDevice .csa2 (.other 0) .aes)
      [.allocCaChan 0 0x100 .aesCbcClrEnd, .setCaAlgo 0 0 .csa2, .freeCaChan 0 0] := by
  intro h
  have hend : (run (step []) (t5dInitDevice .csa2 (.other 0) .aes)
      [.allocCaChan 0 0x100 .aesCbcClrEnd, .setCaAlgo 0 0 .csa2, .freeCaChan 0 0]).any
        (fun dev => !(dev.desc (0, 0)).used && (dev.desc (0, 0)).swDescChan.isSome) = true := by
    decide
  obtain ⟨dev, hrun, hd⟩ := (Option.any_eq_true _ _).mp hend
  simp only [Bool.and_eq_true, Bool.not_eq_true'] at hd
  have hnone := ((always_last h hrun).unused (0, 0) hd.1).1
  rw [hnone] at hd
  exact nomatch hd.2

end MediaModules.T5d
