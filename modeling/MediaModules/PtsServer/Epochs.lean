import Mathlib.Algebra.Order.Ring.Nat
import Mathlib.Tactic.Common
import MediaModules.PtsServer.Stored

/-!
# Rewind epochs

A head check-in gives its node the number of the current epoch, and a timestamp far below the
previous one begins a new epoch. The node of that check-in still gets the old number, because the
increment comes after the assignment; and of the previous timestamp only 32 bits are kept.
-/
namespace MediaModules.PtsServer

open MediaModules.Lib.Run

/-- The timestamp is more than the threshold below its predecessor. -/
def Rewinds (previous pts64 : UInt64) : Prop :=
  pts64.toNat + rewindPtsThreshold.toNat < previous.toNat

instance (previous pts64 : UInt64) : Decidable (Rewinds previous pts64) :=
  inferInstanceAs (Decidable (_ < _))

/-- An instance with the timestamps of its head check-ins so far, and for every node the number of
the check-in that filled it last. -/
structure Traced where
  ins : PtsServerIns
  stamps : List UInt64
  born : NodeId → Nat

def Traced.start (ins : PtsServerIns) : Traced := ⟨ins, [], fun _ => 0⟩

/-- A check-in fills the node that is the first free one after its eviction. -/
def checkinTraced (t : Traced) (op : CheckinPtsSize × Bool) : Option Traced := do
  let (ins, _) ← ptsserverCheckinPtsSize op.1 op.2 t.ins
  let evicted ← checkinEvict t.ins
  some ⟨ins, t.stamps ++ [op.1.pts64],
    match evicted.ptsFreeList with
    | n :: _ => Function.update t.born n t.stamps.length
    | [] => t.born⟩

/-- Two stored nodes have the same number iff no check-in after the first one, up to the second
one, rewound. -/
def EpochsNumbered (t : Traced) : Prop :=
  ∀ m ∈ t.ins.ptsList, ∀ n ∈ t.ins.ptsList, t.born m ≤ t.born n →
    ((t.ins.nodes m).durationCount = (t.ins.nodes n).durationCount ↔
      ∀ k p q, t.born m ≤ k → k < t.born n → t.stamps[k]? = some p → t.stamps[k + 1]? = some q →
        ¬ Rewinds p q)

/-- A head check-in that does not rewind. -/
def Continues (t : Traced) (op : CheckinPtsSize × Bool) : Prop :=
  op.1.pts ≠ 0 ∧ ∀ p ∈ t.stamps.getLast?, ¬ Rewinds p op.1.pts64

instance (t : Traced) (op : CheckinPtsSize × Bool) : Decidable (Continues t op) :=
  decidable_of_iff (op.1.pts ≠ 0 ∧ t.stamps.getLast?.all (¬ Rewinds · op.1.pts64))
    (and_congr_right fun _ => by simp only [Option.all_eq_true, decide_eq_true_eq, Option.mem_def])

/-- Nothing rewound so far: all nodes have the current number. -/
structure OneEpoch (t : Traced) : Prop where
  pooled : Pooled t.ins
  count : ∀ n ∈ t.ins.ptsList, (t.ins.nodes n).durationCount = t.ins.mLastCheckinDurationCount
  last : t.ins.mLastCheckinPts64 = t.stamps.getLast?.elim 0 UInt64.toUInt32
  stamps : ∀ k p q, t.stamps[k]? = some p → t.stamps[k + 1]? = some q → ¬ Rewinds p q

section

variable {ins ins' : PtsServerIns} {t t' : Traced} {op : CheckinPtsSize × Bool}

/-- A small negative difference. -/
theorem getLlabs_sub {x y : UInt64} (hlt : x.toNat < y.toNat) (hy : y.toNat < 2 ^ 32) :
    (getLlabs (x - y)).toNat = y.toNat - x.toNat := by
  have hsub : (x - y).toNat = 2 ^ 64 - y.toNat + x.toNat := by
    rw [UInt64.toNat_sub]
    omega
  have hneg : ¬ (x - y).toInt64 > 0 := by
    intro hpos
    have h : 0 < (x - y).toBitVec.toInt := Int64.lt_iff_toInt_lt.mp hpos
    rw [BitVec.toInt_eq_toNat_cond, UInt64.toNat_toBitVec, hsub] at h
    split at h <;> omega
  unfold getLlabs
  rw [if_neg hneg, UInt64.toNat_sub, hsub]
  have h0 : (0 : UInt64).toNat = 0 := rfl
  omega

theorem rewound_rewinds {ptn : PtsNode} {p : UInt64} (hlast : ins.mLastCheckinPts64 = p.toUInt32)
    (h : rewound ptn ins = true) : Rewinds p ptn.pts64 := by
  unfold rewound at h
  rw [hlast] at h
  obtain ⟨hlt, habs⟩ := of_decide_eq_true h
  have hnat : p.toUInt32.toUInt64.toNat = p.toNat % 2 ^ 32 := by
    rw [UInt32.toNat_toUInt64, UInt64.toNat_toUInt32]
  rw [UInt64.lt_iff_toNat_lt, hnat] at hlt
  have hdiff := getLlabs_sub (x := ptn.pts64) (y := p.toUInt32.toUInt64) (hnat ▸ hlt)
    (hnat ▸ Nat.mod_lt _ (by decide))
  rw [gt_iff_lt, UInt64.lt_iff_toNat_lt, hdiff, hnat] at habs
  have hle := Nat.mod_le p.toNat (2 ^ 32)
  unfold Rewinds
  omega

/-- The first timestamp of an instance is no rewind. -/
theorem rewound_zero {ptn : PtsNode} (hlast : ins.mLastCheckinPts64 = 0) :
    rewound ptn ins = false := by
  unfold rewound
  rw [hlast]
  exact decide_eq_false fun h => absurd (UInt64.lt_iff_toNat_lt.mp h.1) (Nat.not_lt_zero _)

theorem rewound_false {ptn : PtsNode} (h : OneEpoch t) (hpts : ptn.pts64 = op.1.pts64)
    (hlast : ins.mLastCheckinPts64 = t.ins.mLastCheckinPts64) (hop : Continues t op) :
    rewound ptn ins = false := by
  rw [h.last] at hlast
  cases hl : t.stamps.getLast? with
  | none =>
    rw [hl] at hlast
    exact rewound_zero hlast
  | some p =>
    rw [hl] at hlast
    apply Bool.eq_false_iff.mpr
    intro hr
    apply hop.2 p hl
    rw [← hpts]
    exact rewound_rewinds hlast hr

/-- The timestamps go on without a rewind. -/
theorem stamps_next {stamps : List UInt64} {x : UInt64}
    (h : ∀ k p q, stamps[k]? = some p → stamps[k + 1]? = some q → ¬ Rewinds p q)
    (hx : ∀ p ∈ stamps.getLast?, ¬ Rewinds p x) (k : Nat) (p q : UInt64)
    (hp : (stamps ++ [x])[k]? = some p) (hq : (stamps ++ [x])[k + 1]? = some q) :
    ¬ Rewinds p q := by
  have hlen : k + 1 < (stamps ++ [x]).length := (List.getElem?_eq_some_iff.mp hq).1
  rw [List.length_append, List.length_singleton] at hlen
  have hk : k < stamps.length := by omega
  rw [List.getElem?_append_left hk] at hp
  by_cases hk1 : k + 1 < stamps.length
  · rw [List.getElem?_append_left hk1] at hq
    exact h k p q hp hq
  · have hend : k = stamps.length - 1 := by omega
    have hxq : x = q := by
      rw [List.getElem?_append_right (by omega), show k + 1 - stamps.length = 0 by omega] at hq
      exact Option.some.inj hq
    rw [← hxq]
    apply hx p
    rw [List.getLast?_eq_getElem?, ← hend]
    exact hp

theorem checkin_oneEpoch (h : OneEpoch t) (hop : Continues t op)
    (hs : checkinTraced t op = some t') : OneEpoch t' := by
  obtain ⟨⟨i, r⟩, hcall, hs⟩ := Option.bind_eq_some_iff.mp hs
  obtain ⟨evicted, -, hs⟩ := Option.bind_eq_some_iff.mp hs
  have hstep : step t.ins (.checkinPtsSize op.1 op.2) = some i :=
    congrArg (Option.map Prod.fst) hcall
  have hpooled : Pooled i := (step_some_pooled h.pooled hstep).1
  obtain ⟨ins₁, n, rest, he, hroom, hf, -, hi⟩ := checkinPtsSize_head h.pooled hop.1 hcall
  have hsweep := checkinEvict_sweeps he
  have hread := hsweep.read (fun s => (s.mLastCheckinDurationCount, s.mLastCheckinPts64))
    fun _ => rfl
  obtain ⟨hcount, hlast⟩ := Prod.mk.inj hread
  have hnot : rewound (headNode op.1 op.2 (recordCheckin op.1 op.2 ins₁)
      ((recordCheckin op.1 op.2 ins₁).nodes n)) (recordCheckin op.1 op.2 ins₁) = false :=
    rewound_false h rfl hlast hop
  have hcount' : i.mLastCheckinDurationCount = t.ins.mLastCheckinDurationCount := by
    rw [hi, checkinDone_read PtsServerIns.mLastCheckinDurationCount fun _ => rfl]
    show (if rewound _ _ = true then _ else _) = _
    rw [if_neg (Bool.eq_false_iff.mp hnot)]
    exact hcount
  have hnodes : i.nodes = (linked op.1 op.2 n (recordCheckin op.1 op.2 ins₁)).nodes := by
    rw [hi, checkinDone_nodes]
  have hlist : i.ptsList = (linked op.1 op.2 n (recordCheckin op.1 op.2 ins₁)).ptsList := by
    rw [hi, checkinDone_read PtsServerIns.ptsList fun _ => rfl]
  rw [← Option.some.inj hs]
  refine ⟨hpooled, fun m hm => ?_, ?_, stamps_next h.stamps hop.2⟩
  · show (i.nodes m).durationCount = i.mLastCheckinDurationCount
    rw [hcount', hnodes]
    by_cases hmn : m = n
    · rw [hmn, linked_node_self]
      exact hcount
    · have hm' : m ∈ (linked op.1 op.2 n (recordCheckin op.1 op.2 ins₁)).ptsList := by
        rw [← hlist]
        exact hm
      have hold := hsweep.list.subset ((mem_linked.mp hm').resolve_left hmn)
      rw [linked_node_of_ne hmn]
      exact (hsweep.durationCount m).trans (h.count m hold)
  · show i.mLastCheckinPts64 = _
    rw [List.getLast?_concat, hi, checkinDone_read PtsServerIns.mLastCheckinPts64 fun _ => rfl]
    rfl

theorem OneEpoch.numbered (h : OneEpoch t) : EpochsNumbered t := by
  intro m hm n hn _
  apply iff_of_true ((h.count m hm).trans (h.count n hn).symm)
  intro k p q _ _ hp hq
  exact h.stamps k p q hp hq

theorem start_oneEpoch (allocParm : AllocPara) (nodes : NodeId → PtsNode) (ins : PtsServerIns) :
    OneEpoch (.start (ptsserverInsInitSyncinfo allocParm (some nodes) ins).1) := by
  refine ⟨init_pooled allocParm nodes ins, fun n hn => ?_, rfl, fun k p q hp => ?_⟩
  · exact nomatch hn
  · exact nomatch hp

end

/-- On a new instance: as long as no head check-in rewinds, the numbers of the stored nodes tell
the epochs apart. -/
theorem epochs_numbered (allocParm : AllocPara) (nodes : NodeId → PtsNode) (ins : PtsServerIns)
    (ops : List (CheckinPtsSize × Bool))
    (hg : Guarded checkinTraced Continues
      (.start (ptsserverInsInitSyncinfo allocParm (some nodes) ins).1) ops) :
    Always checkinTraced EpochsNumbered
      (.start (ptsserverInsInitSyncinfo allocParm (some nodes) ins).1) ops :=
  (always_of_guarded (fun _ _ _ h hop hs => checkin_oneEpoch h hop hs)
    (start_oneEpoch allocParm nodes ins) hg).imp fun _ h => h.numbered

/-- Three check-ins on a list of two, the second a little earlier than the first. -/
def smallSteps : List (CheckinPtsSize × Bool) :=
  [(⟨100, 90, 2000000⟩, true), (⟨200, 180, 1000000⟩, true), (⟨300, 270, 3000000⟩, true)]

theorem epochs_numbered_smallSteps :
    Always checkinTraced EpochsNumbered (.start (emptyInstance 2)) smallSteps :=
  epochs_numbered _ _ _ smallSteps (by decide +kernel)

/-- The second check-in goes back by ten seconds, and its node has the number of the first. -/
theorem rewind_sameNumber :
    ∃ t, run checkinTraced (.start (emptyInstance 2))
        [(⟨100, 90, 10000000⟩, true), (⟨200, 180, 0⟩, true)] = some t ∧ ¬ EpochsNumbered t := by
  have hread : (run checkinTraced (.start (emptyInstance 2))
      [(⟨100, 90, 10000000⟩, true), (⟨200, 180, 0⟩, true)]).map (fun t =>
        ((t.ins.ptsList, t.born 0, t.born 1), t.stamps, (t.ins.nodes 0).durationCount,
          (t.ins.nodes 1).durationCount)) =
      some (([0, 1], 0, 1), [10000000, 0], 0, 0) := by decide +kernel
  obtain ⟨t, hrun, ht⟩ := Option.map_eq_some_iff.mp hread
  simp only [Prod.mk.injEq] at ht
  obtain ⟨⟨hlist, hborn0, hborn1⟩, hstamps, hcount0, hcount1⟩ := ht
  refine ⟨t, hrun, fun h => ?_⟩
  have h01 := h 0 (by rw [hlist]; decide) 1 (by rw [hlist]; decide) (by omega)
  have hno := h01.mp (hcount0.trans hcount1.symm) 0 10000000 0 (by omega) (by omega)
  rw [hstamps] at hno
  exact hno rfl rfl (by decide)

end MediaModules.PtsServer
