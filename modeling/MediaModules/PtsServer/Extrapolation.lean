import Mathlib.Algebra.Order.Ring.Nat
import Mathlib.Logic.Function.Iterate
import Mathlib.Tactic.Common
import MediaModules.PtsServer.Stored

/-!
# Timestamps without a node

A check-out that finds no node adds a duration to the last result. The duration of the decoder is
in units of 96 kHz; the products are `u32`, before the division. The extrapolation of a peek is
written separately.
-/
namespace MediaModules.PtsServer

open MediaModules.Lib.Run

/-! ## Check-outs that find no node -/

/-- The part of `ptsserver_checkout_pts_offset` that looks for a node. -/
def searched (req : CheckoutPtsOffset) (ins : PtsServerIns) : Option Choice :=
  let c : Choice :=
    ⟨ins, false, none, -1, false, maxCheckoutBoundValue, req.offset.toUInt32, req⟩
  if req.offset.toUInt32 ≠ 0xffffffff ∧ ins.ptsList ≠ [] then checkoutSearch c else some c

/-- `find` is not set when the search is over. -/
def FindsNone (ins : PtsServerIns) (req : CheckoutPtsOffset) : Prop :=
  (searched req ins).map Choice.find = some false

instance (ins : PtsServerIns) (req : CheckoutPtsOffset) : Decidable (FindsNone ins req) :=
  inferInstanceAs (Decidable (_ = _))

/-- Check-out as a step. -/
def checkout (ins : PtsServerIns) (req : CheckoutPtsOffset) : Option PtsServerIns :=
  (ptsserverCheckoutPtsOffset req ins).map Prod.fst

section

variable {ins ins' s : PtsServerIns} {req out : CheckoutPtsOffset} {reqs : List CheckoutPtsOffset}

theorem searched_sweeps {c : Choice} (h : searched req ins = some c) : Sweeps ins c.ins := by
  unfold searched at h
  dsimp only at h
  split at h
  · exact checkoutSearch_sweeps h
  · rw [← Option.some.inj h]
    exact .refl ins

/-- The call when `find` is not set. -/
theorem checkout_findsNone (h : FindsNone ins req)
    (hcall : ptsserverCheckoutPtsOffset req ins = some (ins', out)) :
    ∃ c, searched req ins = some c ∧ checkoutFail c = (ins', out) := by
  obtain ⟨c, hc, hfind⟩ := Option.map_eq_some_iff.mp h
  obtain ⟨c', hc', hout⟩ := Option.map_eq_some_iff.mp hcall
  obtain rfl : c = c' := Option.some.inj (hc.symm.trans hc')
  rw [if_pos (.inl hfind)] at hout
  exact ⟨c, hc, hout⟩

/-- No node can match: the list is empty or the request has no offset. -/
theorem searched_none (h : ins.ptsList = [] ∨ req.offset.toUInt32 = 0xffffffff) :
    searched req ins =
      some ⟨ins, false, none, -1, false, maxCheckoutBoundValue, req.offset.toUInt32, req⟩ := by
  unfold searched
  dsimp only
  rw [if_neg fun hc => h.elim hc.2 hc.1]

theorem findsNone_of (h : ins.ptsList = [] ∨ req.offset.toUInt32 = 0xffffffff) :
    FindsNone ins req := by
  unfold FindsNone
  rw [searched_none h]
  rfl

/-- The timestamps of an extrapolation depend on the last ones and the durations alone. -/
theorem extrapolate_result (ins : PtsServerIns) :
    ((extrapolate ins).mLastCheckoutPts, (extrapolate ins).mLastCheckoutPts64) =
      if ins.mDecoderDuration ≠ 0 then
        (ins.mLastCheckoutPts + ins.mDecoderDuration * 90 / 96,
          ins.mLastCheckoutPts64 + (ins.mDecoderDuration * 1000 / 96).toUInt64)
      else if ins.mPtsCheckoutStarted = 0 then (0xffffffff, 0xffffffffffffffff)
      else (ins.mLastCheckoutPts + ins.mFrameDuration,
        ins.mLastCheckoutPts64 + ins.mFrameDuration64) := by
  unfold extrapolate
  split
  · rfl
  · split <;> rfl

theorem checkout_none (ins : PtsServerIns) (req : CheckoutPtsOffset)
    (h : ins.ptsList = [] ∨ req.offset.toUInt32 = 0xffffffff) :
    ∃ ins' out, ptsserverCheckoutPtsOffset req ins = some (ins', out) ∧
      (out.pts, out.pts64) =
        ((extrapolate ins).mLastCheckoutPts, (extrapolate ins).mLastCheckoutPts64) := by
  let c : Choice := ⟨ins, false, none, -1, false, maxCheckoutBoundValue, req.offset.toUInt32, req⟩
  have hcall : ptsserverCheckoutPtsOffset req ins = some (checkoutFail c) :=
    congrArg (Option.map _) (searched_none h)
  have hresult := (extrapolate_result (failRecord c)).trans (extrapolate_result ins).symm
  exact ⟨_, _, hcall, hresult⟩

/-- The last result and the duration. -/
structure Clock where
  pts : UInt32
  pts64 : UInt64
  duration : UInt32

def PtsServerIns.clock (ins : PtsServerIns) : Clock :=
  ⟨ins.mLastCheckoutPts, ins.mLastCheckoutPts64, ins.mDecoderDuration⟩

/-- The clock goes on by the duration, in the arithmetic of the code. -/
def Clock.next (c : Clock) : Clock :=
  ⟨c.pts + c.duration * 90 / 96, c.pts64 + (c.duration * 1000 / 96).toUInt64, c.duration⟩

theorem extrapolate_clock (h : ins.mDecoderDuration ≠ 0) :
    (extrapolate ins).clock = ins.clock.next := by
  unfold extrapolate
  rw [if_pos h]
  rfl

/-- A check-out that finds no node reports the next value of the clock. -/
theorem checkout_clock (hd : ins.mDecoderDuration ≠ 0) (h : FindsNone ins req)
    (hcall : ptsserverCheckoutPtsOffset req ins = some (ins', out)) :
    ins'.clock = ins.clock.next ∧ out.pts = ins.clock.next.pts ∧
      out.pts64 = ins.clock.next.pts64 := by
  obtain ⟨c, hc, hout⟩ := checkout_findsNone h hcall
  have hclock : c.ins.clock = ins.clock :=
    (searched_sweeps hc).read PtsServerIns.clock fun _ => rfl
  have hdur : (failRecord c).mDecoderDuration ≠ 0 := by
    show c.ins.clock.duration ≠ 0
    rw [hclock]
    exact hd
  have hnext : (extrapolate (failRecord c)).clock = ins.clock.next := by
    rw [extrapolate_clock hdur, ← hclock]
    rfl
  have hins : (checkoutFail c).1 = ins' := congrArg Prod.fst hout
  have hout : (checkoutFail c).2 = out := congrArg Prod.snd hout
  rw [← hins, ← hout, ← hnext]
  exact ⟨rfl, rfl, rfl⟩

/-- The clock after `k` durations. -/
theorem clock_iterate (c : Clock) (k : Nat) :
    (Clock.next^[k] c).pts.toNat = (c.pts.toNat + k * (c.duration * 90 / 96).toNat) % 2 ^ 32 ∧
      (Clock.next^[k] c).pts64.toNat =
        (c.pts64.toNat + k * (c.duration * 1000 / 96).toNat) % 2 ^ 64 ∧
      (Clock.next^[k] c).duration = c.duration := by
  induction k with
  | zero =>
    have h1 := c.pts.toNat_lt
    have h2 := c.pts64.toNat_lt
    refine ⟨?_, ?_, rfl⟩
    · rw [Function.iterate_zero_apply, Nat.zero_mul, Nat.add_zero, Nat.mod_eq_of_lt h1]
    · rw [Function.iterate_zero_apply, Nat.zero_mul, Nat.add_zero, Nat.mod_eq_of_lt h2]
  | succ k ih =>
    obtain ⟨h1, h2, h3⟩ := ih
    rw [Function.iterate_succ_apply']
    refine ⟨?_, ?_, h3⟩
    · show ((Clock.next^[k] c).pts + (Clock.next^[k] c).duration * 90 / 96).toNat = _
      rw [UInt32.toNat_add, h1, h3, Nat.mod_add_mod, Nat.succ_mul, Nat.add_assoc]
    · show ((Clock.next^[k] c).pts64 +
        ((Clock.next^[k] c).duration * 1000 / 96).toUInt64).toNat = _
      rw [UInt64.toNat_add, h2, h3, UInt32.toNat_toUInt64, Nat.mod_add_mod, Nat.succ_mul,
        Nat.add_assoc]

/-- Check-outs in a row that find no node. -/
theorem checkouts_clock (hd : ins.mDecoderDuration ≠ 0) (h : Guarded checkout FindsNone ins reqs)
    (hr : run checkout ins reqs = some s) :
    s.clock = Clock.next^[reqs.length] ins.clock ∧ s.mDecoderDuration ≠ 0 := by
  induction reqs generalizing ins with
  | nil =>
    rw [← Option.some.inj hr]
    exact ⟨rfl, hd⟩
  | cons req reqs ih =>
    obtain ⟨ins₁, h1, hr⟩ := run_cons_some.mp hr
    obtain ⟨⟨i, out⟩, hcall, rfl⟩ := Option.map_eq_some_iff.mp h1
    have hclock := (checkout_clock hd h.1 hcall).1
    have hd1 : i.clock.duration ≠ 0 := by
      rw [hclock]
      exact hd
    obtain ⟨hs, hds⟩ := ih hd1 (h.2 i h1) hr
    refine ⟨?_, hds⟩
    rw [hs, hclock, List.length_cons, Function.iterate_succ_apply]

/-- The `k`-th of `k` check-outs in a row that find no node reports the last result and `k`
durations, each rounded down. -/
def ExtrapolationExact (ins : PtsServerIns) : Prop :=
  ∀ reqs req s ins' out, Guarded checkout FindsNone ins (reqs ++ [req]) →
    run checkout ins reqs = some s → ptsserverCheckoutPtsOffset req s = some (ins', out) →
      out.pts64.toNat = (ins.mLastCheckoutPts64.toNat +
        (reqs.length + 1) * (ins.mDecoderDuration.toNat * 1000 / 96)) % 2 ^ 64 ∧
      out.pts.toNat = (ins.mLastCheckoutPts.toNat +
        (reqs.length + 1) * (ins.mDecoderDuration.toNat * 90 / 96)) % 2 ^ 32

theorem duration_toNat (d m : UInt32) :
    (d * m / 96).toNat = d.toNat * m.toNat % 2 ^ 32 / 96 := by
  rw [UInt32.toNat_div, UInt32.toNat_mul]
  rfl

/-- A product that wraps around gives too little. -/
theorem div_mod_lt {x : Nat} (h : 2 ^ 32 ≤ x) : x % 2 ^ 32 / 96 < x / 96 := by omega

/-- The extrapolation is exact iff the longer product fits into 32 bits. -/
theorem extrapolation_exact_iff (hd : ins.mDecoderDuration ≠ 0) (h30 : ins.mDecoderDuration.toNat < 2 ^ 30) :
    ExtrapolationExact ins ↔ ins.mDecoderDuration.toNat * 1000 < 2 ^ 32 := by
  have h1000 : (ins.mDecoderDuration * 1000 / 96).toNat =
      ins.mDecoderDuration.toNat * 1000 % 2 ^ 32 / 96 := duration_toNat _ 1000
  have h90 : (ins.mDecoderDuration * 90 / 96).toNat =
      ins.mDecoderDuration.toNat * 90 % 2 ^ 32 / 96 := duration_toNat _ 90
  constructor
  · intro hexact
    -- one request without an offset is enough
    have hnone : FindsNone ins ⟨0xffffffff, 0, 0⟩ := findsNone_of (.inr rfl)
    obtain ⟨ins', out, hp, -⟩ := checkout_none ins ⟨0xffffffff, 0, 0⟩ (.inr rfl)
    obtain ⟨h64, -⟩ := hexact [] _ ins ins' out ⟨hnone, fun _ _ => trivial⟩ rfl hp
    rw [(checkout_clock hd hnone hp).2.2] at h64
    have hone := (clock_iterate ins.clock 1).2.1
    rw [Function.iterate_one] at hone
    rw [hone] at h64
    simp only [PtsServerIns.clock, h1000, List.length_nil, Nat.zero_add, Nat.one_mul] at h64
    by_contra hbig
    have hlt : ins.mDecoderDuration.toNat * 1000 % 2 ^ 32 / 96 <
        ins.mDecoderDuration.toNat * 1000 / 96 := div_mod_lt (Nat.not_lt.mp hbig)
    have hbound : ins.mDecoderDuration.toNat * 1000 / 96 < 2 ^ 64 := by omega
    generalize ins.mDecoderDuration.toNat * 1000 % 2 ^ 32 / 96 = p at h64 hlt
    generalize ins.mDecoderDuration.toNat * 1000 / 96 = q at h64 hlt hbound
    omega
  · intro hsmall reqs req s ins' out hg hr hcall
    obtain ⟨hs, hds⟩ := checkouts_clock hd (guarded_init hg) hr
    obtain ⟨-, hpts, hpts64⟩ := checkout_clock hds (guarded_last hg hr) hcall
    rw [hs, ← Function.iterate_succ_apply' Clock.next] at hpts hpts64
    obtain ⟨hk, hk64, -⟩ := clock_iterate ins.clock (reqs.length + 1)
    rw [hpts, hpts64, hk, hk64]
    simp only [PtsServerIns.clock, h1000, h90]
    rw [Nat.mod_eq_of_lt hsmall, Nat.mod_eq_of_lt (show ins.mDecoderDuration.toNat * 90 < 2 ^ 32 by
      omega)]
    exact ⟨rfl, rfl⟩

end

/-- A node stored and matched by a check-out with the duration. -/
def matched (duration : UInt64) : List Op :=
  [.checkinPtsSize ⟨100, 90, 1000⟩ true, .checkoutPtsOffset ⟨duration <<< 32 ||| 110, 0, 0⟩]

theorem extrapolation_exact_matched :
    ∃ ins, run step (emptyInstance 2) (matched 3200) = some ins ∧ ExtrapolationExact ins := by
  have hread : (run step (emptyInstance 2) (matched 3200)).map (fun s => s.mDecoderDuration) =
      some 3200 := by decide +kernel
  obtain ⟨ins, hrun, hd⟩ := Option.map_eq_some_iff.mp hread
  have hnat : ins.mDecoderDuration.toNat = 3200 := congrArg UInt32.toNat hd
  have hne : ins.mDecoderDuration ≠ 0 := by
    rw [hd]
    decide
  exact ⟨ins, hrun, (extrapolation_exact_iff hne (by omega)).mpr (by omega)⟩

/-- The shortest duration whose product with 1000 does not fit. -/
theorem matched_wraps :
    ∃ ins, run step (emptyInstance 2) (matched 4294968) = some ins ∧
      ins.mPtsCheckoutStarted ≠ 0 ∧ ins.mDecoderDuration = 4294968 ∧ ¬ ExtrapolationExact ins := by
  have hread : (run step (emptyInstance 2) (matched 4294968)).map (fun s =>
      ((s.mPtsCheckoutStarted, s.mDecoderDuration, s.mLastCheckoutPts64),
        decide (FindsNone s ⟨0xffffffff, 0, 0⟩),
        (ptsserverCheckoutPtsOffset ⟨0xffffffff, 0, 0⟩ s).map fun p => p.2.pts64)) =
      some ((1, 4294968, 1000), true, some 1007) := by decide +kernel
  obtain ⟨ins, hrun, hins⟩ := Option.map_eq_some_iff.mp hread
  simp only [Prod.mk.injEq] at hins
  obtain ⟨⟨hstarted, hd, hlast⟩, hnone, hcall⟩ := hins
  have hne : ins.mPtsCheckoutStarted ≠ 0 := by
    rw [hstarted]
    decide
  refine ⟨ins, hrun, hne, hd, fun hexact => ?_⟩
  obtain ⟨p, hp, hpts⟩ := Option.map_eq_some_iff.mp hcall
  obtain ⟨h64, -⟩ := hexact [] _ ins p.1 p.2 ⟨of_decide_eq_true hnone, fun _ _ => trivial⟩ rfl hp
  rw [hpts, hlast, hd] at h64
  exact absurd h64 (by decide)

/-! ## Peek and check-out -/

section

variable {ins : PtsServerIns} {req : CheckoutPtsOffset}

/-- A peek reports what a check-out would report. -/
def PeekAgrees (req : CheckoutPtsOffset) (ins : PtsServerIns) : Prop :=
  ∃ ins' out, ptsserverCheckoutPtsOffset req ins = some (ins', out) ∧
    (ptsserverPeekPtsOffset req ins).2.pts = out.pts ∧
    (ptsserverPeekPtsOffset req ins).2.pts64 = out.pts64

theorem peek_none (h : ins.ptsList = [] ∨ req.offset.toUInt32 = 0xffffffff) :
    (ptsserverPeekPtsOffset req ins).2 =
      { req with pts := (peekFail ins).1, pts64 := (peekFail ins).2 } := by
  unfold ptsserverPeekPtsOffset
  dsimp only
  rw [if_neg fun hc => h.elim hc.2 hc.1]

/-- A product with 90 in 32 bits, divided by 96, is smaller. -/
theorem duration_ne (d : UInt32) (hd : d ≠ 0) : d * 90 / 96 ≠ d := by
  intro he
  have h := congrArg UInt32.toNat he
  rw [duration_toNat d 90] at h
  have hpos : d.toNat ≠ 0 := fun h0 => hd (UInt32.toNat_inj.mp h0)
  have hle := Nat.mod_le (d.toNat * (90 : UInt32).toNat) (2 ^ 32)
  have h90 : (90 : UInt32).toNat = 90 := rfl
  rw [h90] at h hle
  generalize d.toNat * 90 % 2 ^ 32 = x at h hle
  omega

/-- Where no node can match, a peek agrees with the check-out iff there is no decoder duration,
and for each timestamp there is a frame duration or the last one was zero. -/
theorem peek_agrees_iff (hnone : ins.ptsList = [] ∨ req.offset.toUInt32 = 0xffffffff)
    (hstarted : ins.mPtsCheckoutStarted ≠ 0) (hpts : ins.mLastPeekPts = ins.mLastCheckoutPts)
    (hpts64 : ins.mLastPeekPts64 = ins.mLastCheckoutPts64) :
    PeekAgrees req ins ↔ ins.mDecoderDuration = 0 ∧
      (ins.mFrameDuration ≠ 0 ∨ ins.mLastCheckoutPts = 0) ∧
      (ins.mFrameDuration64 ≠ 0 ∨ ins.mLastCheckoutPts64 = 0) := by
  obtain ⟨ins', out, hcall, hout⟩ := checkout_none ins req hnone
  obtain ⟨hout, hout64⟩ := Prod.mk.injEq .. ▸ hout
  have hagrees : PeekAgrees req ins ↔ (peekFail ins).1 = (extrapolate ins).mLastCheckoutPts ∧
      (peekFail ins).2 = (extrapolate ins).mLastCheckoutPts64 := by
    unfold PeekAgrees
    rw [peek_none hnone, ← hout, ← hout64]
    constructor
    · rintro ⟨ins₁, out₁, h1, h⟩
      have heq : (ins', out) = (ins₁, out₁) := Option.some.inj (hcall.symm.trans h1)
      rw [(Prod.mk.inj heq).2]
      exact h
    · intro h
      exact ⟨ins', out, hcall, h⟩
  rw [hagrees]
  unfold peekFail extrapolate
  by_cases hd : ins.mDecoderDuration = 0
  · rw [if_neg (not_not.mpr hd), if_neg (not_not.mpr hd), if_neg hstarted]
    dsimp only
    rw [hpts, hpts64]
    refine Iff.trans (and_congr ?_ ?_) (and_iff_right hd).symm
    · by_cases hf : ins.mFrameDuration = 0
      · rw [if_neg (not_not.mpr hf), hf, UInt32.add_zero]
        exact ⟨fun h => .inr h.symm, fun h => (h.resolve_left fun hn => hn rfl).symm⟩
      · rw [if_pos hf]
        exact iff_of_true rfl (.inl hf)
    · by_cases hf : ins.mFrameDuration64 = 0
      · rw [if_neg (not_not.mpr hf), hf, UInt64.add_zero]
        exact ⟨fun h => .inr h.symm, fun h => (h.resolve_left fun hn => hn rfl).symm⟩
      · rw [if_pos hf]
        exact iff_of_true rfl (.inl hf)
  · rw [if_pos hd, if_pos hd]
    dsimp only
    refine iff_of_false (fun h => ?_) fun h => hd h.1
    rw [hpts] at h
    exact duration_ne _ hd (UInt32.add_right_inj _ |>.mp h.1).symm

end

/-- Two matched check-outs, after which there are frame durations. -/
def frames : List Op :=
  [.checkinPtsSize ⟨100, 90, 1000⟩ true, .checkinPtsSize ⟨5000, 2790, 31000⟩ true,
    .checkoutPtsOffset ⟨110, 0, 0⟩, .checkoutPtsOffset ⟨5010, 0, 0⟩]

theorem peek_agrees_frames :
    ∃ ins, run step (emptyInstance 3) frames = some ins ∧ PeekAgrees ⟨0xffffffff, 0, 0⟩ ins := by
  have hread : (run step (emptyInstance 3) frames).map (fun s =>
      ((s.mPtsCheckoutStarted, s.mDecoderDuration, s.mFrameDuration, s.mFrameDuration64),
        s.mLastPeekPts == s.mLastCheckoutPts, s.mLastPeekPts64 == s.mLastCheckoutPts64)) =
      some ((1, 0, 2700, 30000), true, true) := by decide +kernel
  obtain ⟨ins, hrun, hins⟩ := Option.map_eq_some_iff.mp hread
  simp only [Prod.mk.injEq] at hins
  obtain ⟨⟨hstarted, hd, hf, hf64⟩, hpts, hpts64⟩ := hins
  refine ⟨ins, hrun, (peek_agrees_iff (.inr rfl) ?_ (eq_of_beq hpts) (eq_of_beq hpts64)).mpr
    ⟨hd, .inl ?_, .inl ?_⟩⟩
  · rw [hstarted]
    decide
  · rw [hf]
    decide
  · rw [hf64]
    decide

/-- With a decoder duration of 3200 a peek adds 3200 and a check-out 3000. -/
theorem peek_differs_matched :
    ∃ ins, run step (emptyInstance 2) (matched 3200) = some ins ∧ ins.ptsList = [] ∧
      ins.mPtsCheckoutStarted ≠ 0 ∧ ins.mLastPeekPts = ins.mLastCheckoutPts ∧
      ins.mLastPeekPts64 = ins.mLastCheckoutPts64 ∧ ¬ PeekAgrees ⟨200, 0, 0⟩ ins := by
  have hread : (run step (emptyInstance 2) (matched 3200)).map (fun s =>
      ((s.ptsList, s.mPtsCheckoutStarted, s.mLastPeekPts == s.mLastCheckoutPts,
        s.mLastPeekPts64 == s.mLastCheckoutPts64), (ptsserverPeekPtsOffset ⟨200, 0, 0⟩ s).2.pts,
        (ptsserverCheckoutPtsOffset ⟨200, 0, 0⟩ s).map fun p => p.2.pts)) =
      some (([], 1, true, true), 3290, some 3090) := by decide +kernel
  obtain ⟨ins, hrun, hins⟩ := Option.map_eq_some_iff.mp hread
  simp only [Prod.mk.injEq] at hins
  obtain ⟨⟨hlist, hstarted, hpts, hpts64⟩, hpeek, hcall⟩ := hins
  have hne : ins.mPtsCheckoutStarted ≠ 0 := by
    rw [hstarted]
    decide
  refine ⟨ins, hrun, hlist, hne, eq_of_beq hpts, eq_of_beq hpts64, ?_⟩
  rintro ⟨ins', out, hout, heq, -⟩
  rw [hout, Option.map_some, Option.some.injEq] at hcall
  rw [hpeek] at heq
  exact absurd (heq.trans hcall) (by decide)

end MediaModules.PtsServer
