import Mathlib.Algebra.Order.Ring.Nat
import Mathlib.Tactic.Common
import MediaModules.PtsServer.Extrapolation

/-!
# The search in offset mode

In offset mode the loop of a check-out takes the nearest node below the requested offset and stops
after a row of nodes out of reach. On a list that is sorted by offset nothing is missed: the nodes
in reach stand together, and each of them is the best so far when the loop comes to it.
-/
namespace MediaModules.PtsServer

/-- The node is below the requested offset and in reach. -/
def InWindow (cur : UInt32) (ins : PtsServerIns) (n : NodeId) : Prop :=
  (ins.nodes n).offset < cur ∧ cur.toNat - (ins.nodes n).offset.toNat ≤ ins.mLookupThreshold.toNat

instance (cur : UInt32) (ins : PtsServerIns) : DecidablePred (InWindow cur ins) := fun _ =>
  inferInstanceAs (Decidable (_ ∧ _))

/-- The node is too far away, or at its last chance. -/
def Droppable (cur : UInt32) (ins : PtsServerIns) (n : NodeId) : Prop :=
  dropDistance.toNat < cur.toNat - (ins.nodes n).offset.toNat ∨
    dropDistance.toNat < (ins.nodes n).offset.toNat - cur.toNat ∨
    (ins.nodes n).expiredCount.toNat ≤ 1

/-- The list goes up by offset, and no offset is more than half the range away. -/
structure Sorted (cur : UInt32) (ins : PtsServerIns) : Prop where
  sorted : ins.ptsList.Pairwise fun m n => (ins.nodes m).offset ≤ (ins.nodes n).offset
  near : ∀ n ∈ ins.ptsList, cur.toNat - (ins.nodes n).offset.toNat ≤ 2 ^ 31 ∧
    (ins.nodes n).offset.toNat - cur.toNat ≤ 2 ^ 31

/-! ## Distances -/

section

variable {cur offset : UInt32}

theorem toInt32_neg_iff (x : UInt32) : x.toInt32 < 0 ↔ 2 ^ 31 ≤ x.toNat := by
  have h : x.toInt32 < 0 ↔ x.toBitVec.toInt < 0 := Int32.lt_iff_toInt_lt
  have hlt := x.toNat_lt
  rw [h, BitVec.toInt_eq_toNat_cond, UInt32.toNat_toBitVec]
  split <;> omega

/-- The distance to an offset below. -/
theorem absInt_below (hlt : offset < cur) (hd : cur.toNat - offset.toNat ≤ 2 ^ 31) :
    (absInt (cur - offset)).toNat = cur.toNat - offset.toNat := by
  have hlt' := UInt32.lt_iff_toNat_lt.mp hlt
  have hsub : (cur - offset).toNat = cur.toNat - offset.toNat :=
    UInt32.toNat_sub_of_le _ _ (UInt32.le_of_lt hlt)
  have h0 : (0 : UInt32).toNat = 0 := rfl
  unfold absInt
  split
  · rename_i hneg
    have hbig := (toInt32_neg_iff _).mp hneg
    rw [UInt32.toNat_sub, hsub, h0]
    omega
  · exact hsub

theorem absInt_above (hle : cur ≤ offset) (hd : offset.toNat - cur.toNat ≤ 2 ^ 31) :
    (absInt (cur - offset)).toNat = offset.toNat - cur.toNat := by
  have hle' := UInt32.le_iff_toNat_le.mp hle
  have hoff := offset.toNat_lt
  have hcur := cur.toNat_lt
  have hsub : (cur - offset).toNat = (2 ^ 32 - offset.toNat + cur.toNat) % 2 ^ 32 :=
    UInt32.toNat_sub _ _
  have h0 : (0 : UInt32).toNat = 0 := rfl
  unfold absInt
  split
  · rw [UInt32.toNat_sub, hsub, h0]
    omega
  · rename_i hpos
    have hsmall : ¬ 2 ^ 31 ≤ (cur - offset).toNat := fun h => hpos ((toInt32_neg_iff _).mpr h)
    rw [hsub] at hsmall ⊢
    omega

end

/-! ## The parts of the loop body -/

/-- What the loop in offset mode works on. -/
structure OffsetView where
  find : Bool
  findPtn : Option NodeId
  findIndex : Int32
  fitOffsetPtn : Option NodeId
  expectedOffsetDiff : UInt32
  findFrameNum : Int32
  retryCount : Int32

def Scan.view (s : Scan) : OffsetView :=
  ⟨s.find, s.findPtn, s.findIndex, s.fitOffsetPtn, s.expectedOffsetDiff, s.findFrameNum,
    s.retryCount⟩

section

variable {cur offsetAbs : UInt32} {n : NodeId} {s s' : Scan}

theorem scanExpire_view : (scanExpire cur n s).view = s.view := by
  unfold scanExpire
  dsimp only
  split <;> rfl

theorem scanFitPts_view : (scanFitPts offsetAbs n s).view = s.view := by
  unfold scanFitPts
  dsimp only
  split <;> rfl

/-- What a drop changes, and why it happened. -/
theorem scanDrop_cases (h : scanDrop offsetAbs n s = some s') :
    ∃ l f k, s' = { s with ins := { s.ins with ptsList := l, ptsFreeList := f, mListSize := k } } ∧
      l.Sublist s.ins.ptsList ∧ ∀ m ∈ s.ins.ptsList, m ∉ l →
        m = n ∧ (offsetAbs > dropDistance ∨ (s.ins.nodes n).expiredCount ≤ 0) := by
  unfold scanDrop at h
  split at h
  · rename_i hdrop
    obtain ⟨ins, hq, rfl⟩ := Option.map_eq_some_iff.mp h
    obtain ⟨l, f, k, rfl, hsub, hout⟩ := queueEmpty_cases hq
    exact ⟨l, f, k, rfl, hsub, fun m hm hml => ⟨hout m hm hml, hdrop.1⟩⟩
  · rw [← Option.some.inj h]
    exact ⟨_, _, _, rfl, .refl _, fun m hm hml => absurd hm hml⟩

theorem scanFind_offsetMode (h : s.ins.mOffsetMode = true) : scanFind cur n s = s := by
  unfold scanFind
  dsimp only
  rw [if_neg fun hc => absurd (h.symm.trans hc.2.1) (by decide)]

theorem scanRetry_offsetMode (h : s.findIndex = -1) : scanRetry s = s := by
  unfold scanRetry
  rw [if_neg fun hc => absurd (h.symm.trans hc.2.1) (by decide)]

theorem scanExpire_nodes (cur : UInt32) (n : NodeId) (s : Scan) :
    (∀ m, m ≠ n → (scanExpire cur n s).ins.nodes m = s.ins.nodes m) ∧
    (s.ins.nodes n).expiredCount.toNat ≤
      ((scanExpire cur n s).ins.nodes n).expiredCount.toNat + 1 := by
  unfold scanExpire
  dsimp only
  split
  · refine ⟨fun m hm => Function.update_of_ne hm .., ?_⟩
    simp only [PtsServerIns.setNode, Function.update_self]
    rw [UInt32.toNat_sub]
    have h1 : (1 : UInt32).toNat = 1 := rfl
    have hlt := (s.ins.nodes n).expiredCount.toNat_lt
    omega
  · exact ⟨fun _ _ => rfl, Nat.le_succ _⟩

theorem scanExpire_mode : (scanExpire cur n s).ins.mOffsetMode = s.ins.mOffsetMode := by
  unfold scanExpire
  dsimp only
  split <;> rfl

theorem scanFitOffset_mode (cur offsetAbs : UInt32) (n : NodeId) (h : s.ins.mOffsetMode = true) :
    (scanFitOffset cur offsetAbs n s).ins.mOffsetMode = true := by
  unfold scanFitOffset
  dsimp only
  split
  · dsimp only
    split
    · rfl
    · exact h
  · exact h

theorem scanFitOffset_nodes (cur offsetAbs : UInt32) (n : NodeId) (s : Scan) :
    (scanFitOffset cur offsetAbs n s).ins.nodes = s.ins.nodes := by
  unfold scanFitOffset
  dsimp only
  split
  · dsimp only
    split <;> rfl
  · rfl

theorem scanFit_ins (cur offsetAbs : UInt32) (n : NodeId) (h : s.ins.mOffsetMode = true) :
    (scanFit cur offsetAbs n s).ins.mOffsetMode = true ∧
      (scanFit cur offsetAbs n s).ins.nodes = s.ins.nodes := by
  have hmode := scanFitOffset_mode cur offsetAbs n h
  have hnodes := scanFitOffset_nodes cur offsetAbs n s
  unfold scanFit
  split
  · rw [scanFind_offsetMode hmode]
    dsimp only
    split <;> exact ⟨hmode, hnodes⟩
  · split <;> exact ⟨h, rfl⟩

/-- The comparisons of a node, as the view sees them. -/
def OffsetView.next (v : OffsetView) (n : NodeId) (cur offset offsetAbs threshold : UInt32)
    (invalid : Bool) : OffsetView :=
  if offsetAbs ≤ threshold then
    if offsetAbs ≤ v.expectedOffsetDiff ∧ cur > offset then
      { v with
        find := if invalid then true else v.find
        fitOffsetPtn := some n
        expectedOffsetDiff := offsetAbs
        findFrameNum := 0 }
    else if cur > offset ∨ v.findFrameNum ≥ 0 then { v with findFrameNum := 0 }
    else v
  else if v.findFrameNum ≥ 0 then { v with findFrameNum := v.findFrameNum + 1 }
  else v

theorem scanFit_view (h : s.ins.mOffsetMode = true) : (scanFit cur offsetAbs n s).view =
    s.view.next n cur (s.ins.nodes n).offset offsetAbs s.ins.mLookupThreshold
      (s.ins.nodes n).invalid := by
  have hnodes := scanFitOffset_nodes cur offsetAbs n s
  unfold scanFit OffsetView.next
  split
  · rw [scanFind_offsetMode (scanFitOffset_mode _ _ _ h)]
    dsimp only
    rw [hnodes]
    by_cases hfit : offsetAbs ≤ s.expectedOffsetDiff ∧ cur > (s.ins.nodes n).offset
    · rw [if_pos (show offsetAbs ≤ s.view.expectedOffsetDiff ∧ _ from hfit), if_pos (.inl hfit.2)]
      unfold scanFitOffset
      dsimp only
      rw [if_pos hfit]
      rfl
    · rw [if_neg (show ¬ (offsetAbs ≤ s.view.expectedOffsetDiff ∧ _) from hfit)]
      unfold scanFitOffset
      dsimp only
      rw [if_neg hfit]
      exact apply_ite Scan.view ..
  · exact apply_ite Scan.view ..

/-! ## The loop -/

/-- The view after the nodes `done`. -/
structure ViewOk (cur : UInt32) (ins : PtsServerIns) (done : List NodeId) (v : OffsetView) :
    Prop where
  findPtn : v.findPtn = none
  findIndex : v.findIndex = -1
  retry : v.retryCount = maxCheckoutRetryCount
  fit : v.fitOffsetPtn = (done.filter fun n => InWindow cur ins n).getLast?
  unfit : v.fitOffsetPtn = none →
    v.find = false ∧ v.findFrameNum = -1 ∧ v.expectedOffsetDiff = ins.mLookupThreshold
  expected : ∀ n, v.fitOffsetPtn = some n →
    v.expectedOffsetDiff = absInt (cur - (ins.nodes n).offset)
  passed : 0 < v.findFrameNum → ∃ m ∈ done, cur ≤ (ins.nodes m).offset

variable {ins : PtsServerIns} {done rest : List NodeId} {v : OffsetView} {invalid : Bool}

/-- What the code compares is the distance. -/
theorem inWindow_iff (h : Sorted cur ins) (hn : n ∈ ins.ptsList) : InWindow cur ins n ↔
    (ins.nodes n).offset < cur ∧ absInt (cur - (ins.nodes n).offset) ≤ ins.mLookupThreshold := by
  apply and_congr_right
  intro hlt
  rw [UInt32.le_iff_toNat_le, absInt_below hlt (h.near n hn).1]

/-- A node in reach does not lie before one that is below the request and out of reach. -/
theorem inWindow_of_le {k : NodeId} (hk : InWindow cur ins k)
    (hle : (ins.nodes k).offset ≤ (ins.nodes n).offset) (hlt : (ins.nodes n).offset < cur) :
    InWindow cur ins n := by
  refine ⟨hlt, ?_⟩
  have hle' := UInt32.le_iff_toNat_le.mp hle
  have hdist := hk.2
  omega

theorem filter_concat_in (h : InWindow cur ins n) :
    ((done ++ [n]).filter fun m => InWindow cur ins m).getLast? = some n := by
  have hone : [n].filter (fun m => InWindow cur ins m) = [n] :=
    List.filter_cons_of_pos (decide_eq_true h)
  rw [List.filter_append, hone, List.getLast?_concat]

theorem filter_concat_out (done : List NodeId) (h : ¬ InWindow cur ins n) :
    (done ++ [n]).filter (fun m => InWindow cur ins m) =
      done.filter fun m => InWindow cur ins m := by
  have hnone : [n].filter (fun m => InWindow cur ins m) = [] :=
    List.filter_cons_of_neg fun hc => h (of_decide_eq_true hc)
  rw [List.filter_append, hnone, List.append_nil]

/-- The node that fits so far stands in the list before, and in reach. -/
theorem ViewOk.fit_mem {k : NodeId} (h : ViewOk cur ins done v) (hk : v.fitOffsetPtn = some k) :
    k ∈ done ∧ InWindow cur ins k := by
  have hmem := List.mem_of_getLast? (h.fit.symm.trans hk)
  exact ⟨List.mem_of_mem_filter hmem, of_decide_eq_true (List.mem_filter.mp hmem).2⟩

/-- The loop body at the next node of a sorted list. -/
theorem ViewOk.next (h : ViewOk cur ins done v) (hs : Sorted cur ins)
    (hl : ins.ptsList = done ++ n :: rest) :
    ViewOk cur ins (done ++ [n]) (v.next n cur (ins.nodes n).offset
      (absInt (cur - (ins.nodes n).offset)) ins.mLookupThreshold invalid) := by
  have hn : n ∈ ins.ptsList := hl ▸ List.mem_append_right done List.mem_cons_self
  have hbefore : ∀ k ∈ done, (ins.nodes k).offset ≤ (ins.nodes n).offset := by
    intro k hk
    have hsorted := hs.sorted
    rw [hl] at hsorted
    exact (List.pairwise_append.mp hsorted).2.2 k hk n List.mem_cons_self
  by_cases hw : InWindow cur ins n
  · -- in reach: the distance is at most that of the node that fits so far
    obtain ⟨hlt, habs⟩ := (inWindow_iff hs hn).mp hw
    have hexp : absInt (cur - (ins.nodes n).offset) ≤ v.expectedOffsetDiff := by
      cases hfit : v.fitOffsetPtn with
      | none => exact (h.unfit hfit).2.2 ▸ habs
      | some k =>
        obtain ⟨hkd, hk⟩ := h.fit_mem hfit
        have hkl : k ∈ ins.ptsList := hl ▸ List.mem_append_left _ hkd
        have hle := UInt32.le_iff_toNat_le.mp (hbefore k hkd)
        rw [h.expected k hfit, UInt32.le_iff_toNat_le, absInt_below hlt (hs.near n hn).1,
          absInt_below hk.1 (hs.near k hkl).1]
        omega
    unfold OffsetView.next
    rw [if_pos habs, if_pos ⟨hexp, hlt⟩]
    have hzero : ¬ (0 : Int32) < 0 := by decide
    refine ⟨h.findPtn, h.findIndex, h.retry, (filter_concat_in hw).symm, ?_, fun k hk => ?_,
      fun hpos => absurd hpos hzero⟩
    · intro hc
      exact nomatch hc
    · rw [← Option.some.inj hk]
  · have hfilter := filter_concat_out done hw
    have hkeep : ViewOk cur ins (done ++ [n]) v := by
      refine ⟨h.findPtn, h.findIndex, h.retry, hfilter ▸ h.fit, h.unfit, h.expected, fun hpos => ?_⟩
      obtain ⟨m, hm, hle⟩ := h.passed hpos
      exact ⟨m, List.mem_append_left _ hm, hle⟩
    -- a node was in reach before, so the count is on
    have hcounts (hge : v.findFrameNum ≥ 0) : v.fitOffsetPtn ≠ none := by
      intro hnone
      rw [(h.unfit hnone).2.1] at hge
      exact absurd hge (by decide)
    unfold OffsetView.next
    split
    · rename_i habs
      have hnot : ¬ cur > (ins.nodes n).offset := fun hlt => hw ((inWindow_iff hs hn).mpr ⟨hlt, habs⟩)
      rw [if_neg fun hc => hnot hc.2]
      split
      · rename_i hge
        have hsome := hcounts (hge.resolve_left hnot)
        have hzero : ¬ (0 : Int32) < 0 := by decide
        exact ⟨hkeep.findPtn, hkeep.findIndex, hkeep.retry, hkeep.fit, fun hc => absurd hc hsome,
          hkeep.expected, fun hpos => absurd hpos hzero⟩
      · exact hkeep
    · split
      · rename_i hge
        have hsome := hcounts hge
        refine ⟨hkeep.findPtn, hkeep.findIndex, hkeep.retry, hkeep.fit, fun hc => absurd hc hsome,
          hkeep.expected, fun _ => ⟨n, List.mem_append_right _ List.mem_cons_self, ?_⟩⟩
        obtain ⟨k, hk⟩ := Option.ne_none_iff_exists'.mp hsome
        obtain ⟨hkd, hkw⟩ := h.fit_mem hk
        exact UInt32.not_lt.mp fun hlt => hw (inWindow_of_le hkw (hbefore k hkd) hlt)
      · exact hkeep

/-- The state of the loop after the nodes `done`. -/
structure OffsetScan (cur : UInt32) (ins : PtsServerIns) (done : List NodeId) (s : Scan) : Prop where
  sweep : Sweeps ins s.ins
  mode : s.ins.mOffsetMode = true
  view : ViewOk cur ins done s.view
  untouched : ∀ m ∈ ins.ptsList, m ∉ done → s.ins.nodes m = ins.nodes m
  dropped : ∀ m ∈ ins.ptsList, m ∉ s.ins.ptsList → Droppable cur ins m

theorem start_offsetScan (h : ins.mOffsetMode = true) : OffsetScan cur ins [] (.start ins) := by
  have hneg : ¬ (0 : Int32) < -1 := by decide
  refine ⟨.refl ins, h, ⟨rfl, rfl, rfl, rfl, fun _ => ⟨rfl, rfl, rfl⟩, fun k hk => ?_, ?_⟩,
    fun _ _ _ => rfl, fun m hm hout => absurd hm hout⟩
  · exact nomatch hk
  · exact fun hpos => absurd hpos hneg

/-- The reasons of a drop, in terms of the instance before the search. -/
theorem droppable_of_reason (hs : Sorted cur ins) (hn : n ∈ ins.ptsList) {expired : UInt32}
    (hexp : (ins.nodes n).expiredCount.toNat ≤ expired.toNat + 1)
    (h : absInt (cur - (ins.nodes n).offset) > dropDistance ∨ expired ≤ 0) :
    Droppable cur ins n := by
  rcases h with h | h
  · rw [gt_iff_lt, UInt32.lt_iff_toNat_lt] at h
    by_cases hlt : (ins.nodes n).offset < cur
    · rw [absInt_below hlt (hs.near n hn).1] at h
      exact .inl h
    · rw [absInt_above (UInt32.not_lt.mp hlt) (hs.near n hn).2] at h
      exact .inr (.inl h)
  · have h0 : expired.toNat ≤ 0 := UInt32.le_iff_toNat_le.mp h
    exact .inr (.inr (by omega))

theorem scanNode_offset (h : OffsetScan cur ins done s) (hs : Sorted cur ins)
    (hl : ins.ptsList = done ++ n :: rest) (hnd : n ∉ done)
    (hstep : scanNode cur n s = some s') : OffsetScan cur ins (done ++ [n]) s' := by
  have hn : n ∈ ins.ptsList := hl ▸ List.mem_append_right done List.mem_cons_self
  have hnode : s.ins.nodes n = ins.nodes n := h.untouched n hn hnd
  have hsweep := h.sweep.trans (scanNode_sweeps hstep)
  unfold scanNode at hstep
  dsimp only at hstep
  rw [hnode] at hstep
  obtain ⟨s₁, hdrop, rfl⟩ := Option.map_eq_some_iff.mp hstep
  -- the state before the drop
  generalize habs : absInt (cur - (ins.nodes n).offset) = offsetAbs at hdrop
  obtain ⟨t, ht⟩ : ∃ t, scanFitPts offsetAbs n (scanExpire cur n s) = t := ⟨_, rfl⟩
  have htins : t.ins = (scanExpire cur n s).ins := ht ▸ scanFitPts_ins ..
  have htview : t.view = s.view := ht ▸ scanFitPts_view.trans scanExpire_view
  have htmode : t.ins.mOffsetMode = true := by
    rw [htins, scanExpire_mode]
    exact h.mode
  obtain ⟨hother, hexp⟩ := scanExpire_nodes cur n s
  have htsweep : Sweeps ins t.ins := htins ▸ h.sweep.trans (scanExpire_sweeps cur n s)
  have htlist : t.ins.ptsList = s.ins.ptsList := by
    rw [htins]
    unfold scanExpire
    dsimp only
    split <;> rfl
  rw [ht] at hdrop
  obtain ⟨hmode, hnodes⟩ := scanFit_ins cur offsetAbs n htmode
  have hlist : (scanFit cur offsetAbs n t).ins.ptsList = s.ins.ptsList := by
    rw [← htlist]
    exact (scanFit_looks cur offsetAbs n t).pool.list
  obtain ⟨l, f, k, hs₁, -, hreason⟩ := scanDrop_cases hdrop
  have hview : s₁.view = s.view.next n cur (ins.nodes n).offset offsetAbs ins.mLookupThreshold
      (t.ins.nodes n).invalid := by
    have hoffset : (t.ins.nodes n).offset = (ins.nodes n).offset :=
      (congrArg PtsNode.offset (htsweep.node n) :)
    have hthreshold : t.ins.mLookupThreshold = ins.mLookupThreshold :=
      htsweep.read PtsServerIns.mLookupThreshold fun _ => rfl
    rw [hs₁]
    apply (scanFit_view htmode).trans
    rw [htview, hoffset, hthreshold]
  have hok : ViewOk cur ins (done ++ [n]) s₁.view := by
    rw [hview, ← habs]
    exact h.view.next hs hl
  rw [scanRetry_offsetMode hok.findIndex] at hsweep ⊢
  refine ⟨hsweep, ?_, hok, fun m hm hout => ?_, fun m hm hout => ?_⟩
  · rw [hs₁]
    exact hmode
  · have hmn : m ≠ n := fun he => hout (he ▸ List.mem_append_right _ List.mem_cons_self)
    have hmd : m ∉ done := fun hd => hout (List.mem_append_left _ hd)
    rw [hs₁]
    show (scanFit cur offsetAbs n t).ins.nodes m = _
    rw [hnodes, htins, hother m hmn, h.untouched m hm hmd]
  · by_cases hin : m ∈ s.ins.ptsList
    · rw [hs₁] at hout
      obtain ⟨rfl, hwhy⟩ := hreason m (hlist ▸ hin) hout
      rw [hnodes, htins] at hwhy
      rw [← habs] at hwhy
      exact droppable_of_reason hs hm (hnode ▸ hexp) hwhy
    · exact h.dropped m hm hin

/-- Nodes from the request on are out of reach. -/
theorem filter_above (ins : PtsServerIns) (hrest : ∀ m ∈ rest, cur ≤ (ins.nodes m).offset) :
    rest.filter (fun m => InWindow cur ins m) = [] := by
  apply List.filter_eq_nil_iff.mpr
  intro m hm hw
  exact UInt32.not_lt.mpr (hrest m hm) (of_decide_eq_true hw).1

/-- The early end hides nothing. -/
theorem OffsetScan.stop (h : OffsetScan cur ins done s) (hs : Sorted cur ins)
    (hl : ins.ptsList = done ++ rest) (hstop : s.findFrameNum ≥ s.retryCount) :
    OffsetScan cur ins ins.ptsList s := by
  have hpos : 0 < s.view.findFrameNum := by
    have hge : s.findFrameNum ≥ maxCheckoutRetryCount := h.view.retry ▸ hstop
    have hten : (0 : Int32) < maxCheckoutRetryCount := by decide
    exact Int32.lt_of_lt_of_le hten hge
  obtain ⟨m, hm, hle⟩ := h.view.passed hpos
  have hsorted := hs.sorted
  rw [hl] at hsorted
  have habove := filter_above ins fun k hk =>
    UInt32.le_trans hle ((List.pairwise_append.mp hsorted).2.2 m hm k hk)
  have hall : ins.ptsList.filter (fun k => InWindow cur ins k) =
      done.filter fun k => InWindow cur ins k := by
    rw [hl, List.filter_append, habove, List.append_nil]
  have hv := h.view
  refine ⟨h.sweep, h.mode, ⟨hv.findPtn, hv.findIndex, hv.retry, hall ▸ hv.fit, hv.unfit,
    hv.expected, fun _ => ⟨m, ?_, hle⟩⟩, fun k hk hout => absurd hk hout, h.dropped⟩
  rw [hl]
  exact List.mem_append_left _ hm

/-- The whole loop on a sorted list. -/
theorem scan_offset (hs : Sorted cur ins) (l : List NodeId) :
    ∀ {done : List NodeId} {s : Scan}, OffsetScan cur ins done s → ins.ptsList = done ++ l →
      ins.ptsList.Nodup → scan cur l s = some s' → OffsetScan cur ins ins.ptsList s' := by
  induction l with
  | nil =>
    intro done s h hl _ hscan
    rw [List.append_nil] at hl
    rw [← Option.some.inj hscan, hl]
    exact h
  | cons n l ih =>
    intro done s h hl hnodup hscan
    obtain ⟨s₁, hstep, hscan⟩ := Option.bind_eq_some_iff.mp hscan
    have hnd : n ∉ done := by
      rw [hl] at hnodup
      exact fun hd => (List.nodup_append.mp hnodup).2.2 n hd n List.mem_cons_self rfl
    have h1 := scanNode_offset h hs hl hnd hstep
    have hl1 : ins.ptsList = (done ++ [n]) ++ l := by
      rw [List.append_assoc]
      exact hl
    split at hscan
    · rename_i hstop
      rw [← Option.some.inj hscan]
      exact h1.stop hs hl1 hstop
    · exact ih (s := { s₁ with i := s₁.i + 1 })
        ⟨h1.sweep, h1.mode, h1.view, h1.untouched, h1.dropped⟩ hl1 hnodup hscan

end

end MediaModules.PtsServer
