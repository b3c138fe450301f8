import Mathlib.Algebra.Order.Ring.Nat
import Mathlib.Tactic.Common
import MediaModules.PtsServer.Stored

/-!
# The first and the last check-in

An instance keeps the timestamps of its first and of its last check-in in 32 bits each, though they
are stored and reported as 64.
-/
namespace MediaModules.PtsServer

open MediaModules.Lib.Run

/-- `struct lastcheckinpts`. -/
structure LastCheckinPts where
  mLastCheckinPts : UInt32
  mLastCheckinPts64 : UInt64
  deriving Repr, DecidableEq

/-- `ptsserver_get_last_checkin_pts`. -/
def ptsserverGetLastCheckinPts (ins : PtsServerIns) : LastCheckinPts :=
  ⟨ins.mLastCheckinPts, ins.mLastCheckinPts64.toUInt64⟩

/-! ## Sequences of check-ins -/

inductive Checkin
  | pts (req : CheckinPtsSize) (isOffset : Bool)
  | apts (req : CheckinAptsSize)

namespace Checkin

def op : Checkin → Op
  | pts req isOffset => .checkinPtsSize req isOffset
  | apts req => .checkinAptsSize req

/-- The timestamp of a head check-in. -/
def head : Checkin → Option UInt64
  | pts req _ => if req.pts = 0 then none else some req.pts64
  | apts _ => none

/-- The timestamp of an audio check-in. -/
def audio : Checkin → Option UInt64
  | pts _ _ => none
  | apts req => some req.pts64

/-- The timestamp of a check-in that is no piece. -/
def stamp (c : Checkin) : Option UInt64 := c.head.or c.audio

end Checkin

/-- The part of an audio check-out that looks for a node. -/
def searchedApts (req : CheckoutAptsOffset) (ins : PtsServerIns) :
    Option (PtsServerIns × CheckoutAptsOffset × Bool) :=
  if req.offset.toUInt32 ≠ 0xffffffff ∧ ins.ptsList ≠ [] then
    aptsSearch req.offset.toUInt32 req ins
  else some (ins, req, false)

/-- The audio check-out finds no node, or one without a timestamp. -/
def AptsFails (ins : PtsServerIns) (req : CheckoutAptsOffset) : Prop :=
  ∃ p, searchedApts req ins = some p ∧ ¬ (p.2.2 = true ∧ p.2.1.pts64 ≠ 0xffffffffffffffff)

/-- The last head check-in is reported with its timestamp, and an audio check-out that fails
reports the timestamp of the first audio check-in. -/
structure StampsExact (cs : List Checkin) (ins : PtsServerIns) : Prop where
  last : ∀ x, (cs.filterMap Checkin.head).getLast? = some x →
    (ptsserverGetLastCheckinPts ins).mLastCheckinPts64 = x
  first : ∀ x, (cs.filterMap Checkin.audio).head? = some x → ∀ req ins' out, AptsFails ins req →
    ptsserverCheckoutAptsOffset req ins = some (ins', out) → out.pts64 = x

/-- The timestamps to report fit into 32 bits, and a check-in of the other kind that comes after
the last one, or before the first one, has the same low 32 bits. -/
structure StampsFit (cs : List Checkin) : Prop where
  last : ∀ x y, (cs.filterMap Checkin.head).getLast? = some x →
    (cs.filterMap Checkin.stamp).getLast? = some y → y.toNat % 2 ^ 32 = x.toNat
  first : ∀ x y, (cs.filterMap Checkin.audio).head? = some x →
    (cs.filterMap Checkin.stamp).head? = some y → y.toNat % 2 ^ 32 = x.toNat

/-! ## What a check-in records -/

/-- What an instance keeps of its check-ins. -/
structure Records where
  started : UInt32
  first : UInt32
  last : UInt32
  deriving DecidableEq

def PtsServerIns.records (ins : PtsServerIns) : Records :=
  ⟨ins.mPtsCheckinStarted, ins.mFirstCheckinPts64, ins.mLastCheckinPts64⟩

/-- A timestamp is recorded. -/
def Records.next (r : Records) (x : UInt64) : Records :=
  if r.started = 0 then ⟨1, x.toUInt32, x.toUInt32⟩ else { r with last := x.toUInt32 }

section

variable {ins ins' : PtsServerIns} {c : Checkin} {cs : List Checkin}

theorem checkinDone_records (req : CheckinPtsSize) (isOffset : Bool) (offset : UInt32)
    (ins : PtsServerIns) : (checkinDone req isOffset offset ins).records =
      if ins.mPtsCheckinStarted = 0 then ⟨1, req.pts64.toUInt32, ins.mLastCheckinPts64⟩
      else ins.records := by
  have hfirst : (recordFirst req isOffset ins).records =
      if ins.mPtsCheckinStarted = 0 then ⟨1, req.pts64.toUInt32, ins.mLastCheckinPts64⟩
      else ins.records := by
    unfold recordFirst
    split <;> rfl
  have halign : (alignOffset offset (recordFirst req isOffset ins)).records =
      (recordFirst req isOffset ins).records := by
    unfold alignOffset
    split <;> rfl
  exact halign.trans hfirst

/-- A list without a check-in is empty. -/
structure Untouched (ins : PtsServerIns) : Prop where
  pooled : Pooled ins
  empty : ins.mPtsCheckinStarted = 0 → ins.ptsList = []

theorem records_started {r : Records} {x : UInt64} : (r.next x).started ≠ 0 := by
  unfold Records.next
  split
  · show (1 : UInt32) ≠ 0
    decide
  · assumption

/-- A head check-in or an audio one is recorded, and a piece is not. -/
theorem checkin_records (h : Untouched ins) (hs : step ins c.op = some ins') :
    ins'.records = (c.stamp.elim ins.records ins.records.next) ∧
      (c.stamp = none → ins.mPtsCheckinStarted = 0 → ins'.ptsList = []) := by
  cases c with
  | pts req isOffset =>
    obtain ⟨⟨i, r⟩, hcall, rfl⟩ := Option.map_eq_some_iff.mp hs
    by_cases hpts : req.pts = 0
    · have hstamp : (Checkin.pts req isOffset).stamp = none := by
        simp [Checkin.stamp, Checkin.head, Checkin.audio, hpts]
      rw [hstamp]
      obtain ⟨ins₁, he, hi⟩ := checkinPtsSize_piece hpts hcall
      have hsweep := checkinEvict_sweeps he
      have hread : ins₁.records = ins.records := hsweep.read PtsServerIns.records fun _ => rfl
      have hempty : ins.mPtsCheckinStarted = 0 → ins₁.ptsList = [] := fun h0 =>
        List.sublist_nil.mp (h.empty h0 ▸ hsweep.list)
      rcases hi with ⟨-, rfl⟩ | ⟨hsize, offset, rfl⟩
      · exact ⟨hread, fun _ => hempty⟩
      · have hstarted : ins.mPtsCheckinStarted ≠ 0 := by
          intro h0
          refine hsize (UInt32.toNat_inj.mp ?_)
          rw [(checkinEvict_hasRoom h.pooled he).pooled.size, hempty h0]
          rfl
        refine ⟨?_, fun _ h0 => absurd h0 hstarted⟩
        have hne : (recordCheckin req isOffset ins₁).mPtsCheckinStarted ≠ 0 := by
          show ins₁.records.started ≠ 0
          rw [hread]
          exact hstarted
        show (checkinDone _ _ _ _).records = _
        rw [checkinDone_records, if_neg hne]
        exact hread
    · have hstamp : (Checkin.pts req isOffset).stamp = some req.pts64 := by
        simp [Checkin.stamp, Checkin.head, hpts]
      rw [hstamp]
      refine ⟨?_, fun hc => nomatch hc⟩
      obtain ⟨ins₁, n, rest, he, -, -, -, rfl⟩ := checkinPtsSize_head h.pooled hpts hcall
      have hread : ins₁.records = ins.records :=
        (checkinEvict_sweeps he).read PtsServerIns.records fun _ => rfl
      show (checkinDone _ _ _ _).records = ins.records.next req.pts64
      rw [checkinDone_records, ← hread]
      rfl
  | apts req =>
    obtain ⟨⟨i, r⟩, hcall, rfl⟩ := Option.map_eq_some_iff.mp hs
    refine ⟨?_, fun hc => nomatch hc⟩
    obtain ⟨ins₁, n, rest, he, -, -, rfl⟩ := checkinAptsSize_cases h.pooled hcall
    have hread : ins₁.records = ins.records :=
      (checkinAptsEvict_sweeps he).read PtsServerIns.records fun _ => rfl
    show (checkinAptsDone req (appended req n ins₁)).records = ins.records.next req.pts64
    rw [← hread]
    unfold checkinAptsDone recordFirstApts Records.next PtsServerIns.records
    dsimp only
    by_cases h0 : ins₁.mPtsCheckinStarted = 0
    · have h0' : (appended req n ins₁).mPtsCheckinStarted = 0 := h0
      rw [if_pos h0, if_pos h0']
    · have h0' : ¬ (appended req n ins₁).mPtsCheckinStarted = 0 := h0
      rw [if_neg h0, if_neg h0']
      rfl

theorem checkin_untouched (h : Untouched ins) (hs : step ins c.op = some ins') :
    Untouched ins' := by
  obtain ⟨hrec, hempty⟩ := checkin_records h hs
  refine ⟨(step_some_pooled h.pooled hs).1, fun h0 => ?_⟩
  have h0' : ins'.records.started = 0 := h0
  rw [hrec] at h0'
  cases hstamp : c.stamp with
  | none =>
    rw [hstamp] at h0'
    exact hempty hstamp h0'
  | some x =>
    rw [hstamp] at h0'
    exact absurd h0' records_started

/-- The records after a sequence are those of its timestamps. -/
theorem checkins_records (h : Untouched ins) (hr : run step ins (cs.map Checkin.op) = some ins') :
    ins'.records = (cs.filterMap Checkin.stamp).foldl Records.next ins.records ∧ Untouched ins' := by
  induction cs generalizing ins with
  | nil =>
    rw [← Option.some.inj hr]
    exact ⟨rfl, h⟩
  | cons c cs ih =>
    obtain ⟨ins₁, h1, hr⟩ := run_cons_some.mp hr
    obtain ⟨hrec, -⟩ := checkin_records h h1
    obtain ⟨hrest, hu⟩ := ih (checkin_untouched h h1) hr
    refine ⟨?_, hu⟩
    rw [hrest, hrec]
    cases hstamp : c.stamp with
    | none => rw [List.filterMap_cons_none hstamp]; rfl
    | some x => rw [List.filterMap_cons_some hstamp]; rfl

theorem foldl_records_started (xs : List UInt64) :
    ∀ {r : Records}, r.started ≠ 0 →
      xs.foldl Records.next r = { r with last := xs.getLast?.elim r.last UInt64.toUInt32 } := by
  induction xs with
  | nil => exact fun _ => rfl
  | cons x xs ih =>
    intro r h
    have hnext : r.next x = { r with last := x.toUInt32 } := if_neg h
    rw [List.foldl_cons, ih records_started, hnext, List.getLast?_cons]
    cases xs.getLast? <;> rfl

theorem foldl_records (x : UInt64) (xs : List UInt64) {r : Records} (h : r.started = 0) :
    (x :: xs).foldl Records.next r =
      ⟨1, x.toUInt32, ((x :: xs).getLast?.elim 0 UInt64.toUInt32)⟩ := by
  have hnext : r.next x = ⟨1, x.toUInt32, x.toUInt32⟩ := if_pos h
  rw [List.foldl_cons, foldl_records_started xs records_started, hnext, List.getLast?_cons]
  cases xs.getLast? <;> rfl

theorem init_untouched (allocParm : AllocPara) (nodes : NodeId → PtsNode) (ins : PtsServerIns) :
    Untouched (ptsserverInsInitSyncinfo allocParm (some nodes) ins).1 :=
  ⟨init_pooled allocParm nodes ins, fun _ => rfl⟩

/-- The records of a new instance after a sequence of check-ins. -/
theorem records_of_run {allocParm : AllocPara} {nodes : NodeId → PtsNode} {ins₀ : PtsServerIns}
    (hr : run step (ptsserverInsInitSyncinfo allocParm (some nodes) ins₀).1
      (cs.map Checkin.op) = some ins) {x y : UInt64}
    (hx : (cs.filterMap Checkin.stamp).head? = some x)
    (hy : (cs.filterMap Checkin.stamp).getLast? = some y) :
    ins.mFirstCheckinPts64 = x.toUInt32 ∧ ins.mLastCheckinPts64 = y.toUInt32 := by
  obtain ⟨hrec, -⟩ := checkins_records (init_untouched allocParm nodes ins₀) hr
  obtain ⟨xs, hxs⟩ := List.head?_eq_some_iff.mp hx
  rw [hxs, foldl_records x xs rfl, ← hxs, hy] at hrec
  exact ⟨congrArg Records.first hrec, congrArg Records.last hrec⟩

/-! ## Check-outs before any other -/

theorem checkin_notStarted (h : Pooled ins) (hs : step ins c.op = some ins') :
    ins'.mPtsCheckoutStarted = ins.mPtsCheckoutStarted := by
  have hdone (req : CheckinPtsSize) (isOffset : Bool) (offset : UInt32) (i : PtsServerIns) :
      (checkinDone req isOffset offset i).mPtsCheckoutStarted = i.mPtsCheckoutStarted :=
    checkinDone_read PtsServerIns.mPtsCheckoutStarted fun _ => rfl
  have hread {i : PtsServerIns} (hsweep : Sweeps ins i) :
      i.mPtsCheckoutStarted = ins.mPtsCheckoutStarted :=
    hsweep.read PtsServerIns.mPtsCheckoutStarted fun _ => rfl
  cases c with
  | pts req isOffset =>
    obtain ⟨⟨i, r⟩, hcall, rfl⟩ := Option.map_eq_some_iff.mp hs
    by_cases hpts : req.pts = 0
    · obtain ⟨ins₁, he, hi⟩ := checkinPtsSize_piece hpts hcall
      have h1 := hread (checkinEvict_sweeps he)
      rcases hi with ⟨-, rfl⟩ | ⟨-, offset, rfl⟩
      · exact h1
      · exact (hdone ..).trans h1
    · obtain ⟨ins₁, n, rest, he, -, -, -, rfl⟩ := checkinPtsSize_head h hpts hcall
      have h1 := hread (checkinEvict_sweeps he)
      exact (hdone ..).trans h1
  | apts req =>
    obtain ⟨⟨i, r⟩, hcall, rfl⟩ := Option.map_eq_some_iff.mp hs
    obtain ⟨ins₁, n, rest, he, -, -, rfl⟩ := checkinAptsSize_cases h hcall
    refine Eq.trans ?_ (hread (checkinAptsEvict_sweeps he))
    show (checkinAptsDone req (appended req n ins₁)).mPtsCheckoutStarted = _
    unfold checkinAptsDone recordFirstApts
    split <;> rfl

theorem checkins_notStarted (h : Pooled ins) (hr : run step ins (cs.map Checkin.op) = some ins') :
    ins'.mPtsCheckoutStarted = ins.mPtsCheckoutStarted := by
  induction cs generalizing ins with
  | nil => rw [← Option.some.inj hr]
  | cons c cs ih =>
    obtain ⟨ins₁, h1, hr⟩ := run_cons_some.mp hr
    rw [ih (step_some_pooled h h1).1 hr, checkin_notStarted h h1]

/-- A failed audio check-out before any other reports the first check-in. -/
theorem checkoutApts_first {req out : CheckoutAptsOffset} (h0 : ins.mPtsCheckoutStarted = 0)
    (hf : AptsFails ins req) (hcall : ptsserverCheckoutAptsOffset req ins = some (ins', out)) :
    out.pts64 = ins.mFirstCheckinPts64.toUInt64 := by
  obtain ⟨p, hp, hfind⟩ := hf
  obtain ⟨q, hq, hout⟩ := Option.map_eq_some_iff.mp hcall
  obtain rfl : p = q := Option.some.inj (hp.symm.trans hq)
  have hsweep : Sweeps ins p.1 := by
    unfold searchedApts at hp
    split at hp
    · exact aptsSearch_sweeps hp
    · rw [← Option.some.inj hp]
      exact .refl ins
  have hread := hsweep.read (fun i => (i.mPtsCheckoutStarted, i.mFirstCheckinPts64)) fun _ => rfl
  obtain ⟨hstarted, hfirst⟩ := Prod.mk.inj hread
  have hresult : (aptsResult req.offset.toUInt32 p.1 p.2.1 p.2.2).2 = out := congrArg Prod.snd hout
  unfold aptsResult at hresult
  rw [if_neg hfind, if_pos (hstarted.trans h0)] at hresult
  rw [← hresult, ← hfirst]
  rfl

theorem aptsFails_noOffset (ins : PtsServerIns) :
    AptsFails ins ⟨0xffffffff, 0, 0⟩ ∧
      ∃ ins' out, ptsserverCheckoutAptsOffset ⟨0xffffffff, 0, 0⟩ ins = some (ins', out) :=
  ⟨⟨_, rfl, fun h => nomatch h.1⟩, _, _, rfl⟩

theorem toUInt64_toUInt32_eq {x y : UInt64} :
    y.toUInt32.toUInt64 = x ↔ y.toNat % 2 ^ 32 = x.toNat := by
  rw [← UInt64.toNat_inj, UInt32.toNat_toUInt64, UInt64.toNat_toUInt32]

/-- After a sequence of check-ins the timestamps reported are exact iff those to report fit into
the 32 bits in which the instance keeps them, and no other check-in came in between. -/
theorem stamps_exact_iff {allocParm : AllocPara} {nodes : NodeId → PtsNode} {ins₀ : PtsServerIns}
    (hr : run step (ptsserverInsInitSyncinfo allocParm (some nodes) ins₀).1
      (cs.map Checkin.op) = some ins) : StampsExact cs ins ↔ StampsFit cs := by
  have h0 : ins.mPtsCheckoutStarted = 0 :=
    checkins_notStarted (init_pooled allocParm nodes ins₀) hr
  have hsome {f : Checkin → Option UInt64} (hf : ∀ c x, f c = some x → c.stamp.isSome) {x : UInt64}
      (hx : x ∈ cs.filterMap f) : ∃ y z, (cs.filterMap Checkin.stamp).head? = some y ∧
        (cs.filterMap Checkin.stamp).getLast? = some z := by
    obtain ⟨c, hc, hcx⟩ := List.mem_filterMap.mp hx
    obtain ⟨w, hw⟩ := Option.isSome_iff_exists.mp (hf c x hcx)
    have hne : cs.filterMap Checkin.stamp ≠ [] :=
      List.ne_nil_of_mem (List.mem_filterMap.mpr ⟨c, hc, hw⟩)
    exact ⟨_, _, List.head?_eq_some_head hne, List.getLast?_eq_some_getLast hne⟩
  have hhead : ∀ c x, Checkin.head c = some x → c.stamp.isSome := by
    intro c x hc
    simp [Checkin.stamp, hc]
  have haudio : ∀ c x, Checkin.audio c = some x → c.stamp.isSome := by
    intro c x hc
    simp [Checkin.stamp, hc]
  constructor
  · intro h
    refine ⟨fun x y hx hy => ?_, fun x y hx hy => ?_⟩
    · obtain ⟨w, z, hw, hz⟩ := hsome hhead (List.mem_of_getLast? hx)
      have hlast := h.last x hx
      unfold ptsserverGetLastCheckinPts at hlast
      dsimp only at hlast
      rw [(records_of_run hr hw hy).2] at hlast
      exact toUInt64_toUInt32_eq.mp hlast
    · obtain ⟨w, z, hw, hz⟩ := hsome haudio (List.mem_of_head? hx)
      obtain ⟨hf, ins', out, hcall⟩ := aptsFails_noOffset ins
      have hfirst := h.first x hx _ ins' out hf hcall
      rw [checkoutApts_first h0 hf hcall, (records_of_run hr hy hz).1] at hfirst
      exact toUInt64_toUInt32_eq.mp hfirst
  · intro h
    refine ⟨fun x hx => ?_, fun x hx req ins' out hf hcall => ?_⟩
    · obtain ⟨w, z, hw, hz⟩ := hsome hhead (List.mem_of_getLast? hx)
      show ins.mLastCheckinPts64.toUInt64 = x
      rw [(records_of_run hr hw hz).2]
      exact toUInt64_toUInt32_eq.mpr (h.last x z hx hz)
    · obtain ⟨w, z, hw, hz⟩ := hsome haudio (List.mem_of_head? hx)
      rw [checkoutApts_first h0 hf hcall, (records_of_run hr hw hz).1]
      exact toUInt64_toUInt32_eq.mpr (h.first x w hx hw)

end

/-- An audio check-in and a head check-in. -/
def twoKinds : List Checkin := [.apts ⟨0, 10, 45, 500⟩, .pts ⟨100, 90, 1000⟩ true]

theorem stamps_exact_twoKinds :
    ∃ ins, run step (emptyInstance 2) (twoKinds.map Checkin.op) = some ins ∧
      StampsExact twoKinds ins := by
  have hsome : (run step (emptyInstance 2) (twoKinds.map Checkin.op)).isSome = true := by
    decide +kernel
  obtain ⟨ins, hrun⟩ := Option.isSome_iff_exists.mp hsome
  refine ⟨ins, hrun, (stamps_exact_iff hrun).mpr ⟨?_, ?_⟩⟩
  · intro x y hx hy
    cases hx
    cases hy
    rfl
  · intro x y hx hy
    cases hx
    cases hy
    rfl

/-- The first microsecond that does not fit, after 71 minutes. -/
theorem lastCheckin_truncated :
    ∃ ins, run step (emptyInstance 2) ([.pts ⟨100, 90, 4294967296⟩ true].map Checkin.op) =
        some ins ∧ ¬ StampsExact [.pts ⟨100, 90, 4294967296⟩ true] ins := by
  have hread : (run step (emptyInstance 2)
      ([.pts ⟨100, 90, 4294967296⟩ true].map Checkin.op)).map (fun s =>
        (ptsserverGetLastCheckinPts s).mLastCheckinPts64) = some 0 := by decide +kernel
  obtain ⟨ins, hrun, hins⟩ := Option.map_eq_some_iff.mp hread
  refine ⟨ins, hrun, fun h => ?_⟩
  have hlast := h.last 4294967296 rfl
  rw [hins] at hlast
  exact absurd hlast (by decide)

end MediaModules.PtsServer
