import Mathlib.Tactic.Common
import MediaModules.PtsServer.Candidates

/-!
# What a search leaves alone

The searches of a check-out and the evictions of a check-in take nodes out of `pts_list`, count
down chances and set flags of their own. Everything else stays, and so does the order of the
nodes that are left.
-/
namespace MediaModules.PtsServer

/-- A node without its chances. -/
def PtsNode.rest (ptn : PtsNode) : PtsNode := { ptn with expiredCount := 0 }

/-- An instance without what searches and evictions change. -/
def PtsServerIns.rest (ins : PtsServerIns) : PtsServerIns :=
  { ins with
    nodes := fun n => (ins.nodes n).rest
    ptsList := []
    ptsFreeList := []
    mListSize := 0
    mOffsetMode := false
    mStickyWrapFlag := 0
    mLastCheckoutIndex := 0
    mLastCheckoutDurationCount := 0
    mLastDropIndex := 0 }

/-- Nodes may have left the list, and the rest is as before. -/
structure Sweeps (ins ins' : PtsServerIns) : Prop where
  list : ins'.ptsList.Sublist ins.ptsList
  rest : ins'.rest = ins.rest

namespace Sweeps

variable {ins ins' ins'' : PtsServerIns}

theorem refl (ins : PtsServerIns) : Sweeps ins ins := ⟨.refl _, rfl⟩

theorem trans (h : Sweeps ins ins') (h' : Sweeps ins' ins'') : Sweeps ins ins'' :=
  ⟨h'.list.trans h.list, h'.rest.trans h.rest⟩

/-- What does not look at what a search changes is the same afterwards. -/
theorem read {α : Type*} (h : Sweeps ins ins') (f : PtsServerIns → α)
    (hf : ∀ i, f i.rest = f i) : f ins' = f ins := by
  rw [← hf ins', h.rest, hf ins]

/-- A node keeps what its check-in stored. -/
theorem node (h : Sweeps ins ins') (n : NodeId) : (ins'.nodes n).rest = (ins.nodes n).rest :=
  congrFun (congrArg PtsServerIns.nodes h.rest) n

theorem pts64 (h : Sweeps ins ins') (n : NodeId) : (ins'.nodes n).pts64 = (ins.nodes n).pts64 :=
  (congrArg PtsNode.pts64 (h.node n) :)

theorem durationCount (h : Sweeps ins ins') (n : NodeId) :
    (ins'.nodes n).durationCount = (ins.nodes n).durationCount :=
  (congrArg PtsNode.durationCount (h.node n) :)

end Sweeps

/-- Moving a node to the free list changes the lists and the count, and leaves the other nodes. -/
theorem queueEmpty_cases {ins ins' : PtsServerIns} {n : NodeId} (h : ins.queueEmpty n = some ins') :
    ∃ l f k, ins' = { ins with ptsList := l, ptsFreeList := f, mListSize := k } ∧
      l.Sublist ins.ptsList ∧ ∀ m ∈ ins.ptsList, m ∉ l → m = n := by
  simp only [PtsServerIns.queueEmpty, bind, Option.bind_eq_some_iff] at h
  obtain ⟨ins₁, hdel, ins₂, hadd, h⟩ := h
  unfold PtsServerIns.freeAddTail at hadd
  split at hadd
  · exact nomatch hadd
  rw [← Option.some.inj h, ← Option.some.inj hadd]
  unfold PtsServerIns.listDel at hdel
  split at hdel
  · rw [← Option.some.inj hdel]
    refine ⟨_, _, _, rfl, List.erase_sublist, fun m hm hout => ?_⟩
    by_contra hne
    exact hout ((List.mem_erase_of_ne hne).mpr hm)
  · split at hdel
    · rw [← Option.some.inj hdel]
      exact ⟨_, _, _, rfl, .refl _, fun m hm hout => absurd hm hout⟩
    · exact nomatch hdel

theorem queueEmpty_sweeps {ins ins' : PtsServerIns} {n : NodeId}
    (h : ins.queueEmpty n = some ins') : Sweeps ins ins' := by
  obtain ⟨l, f, k, rfl, hsub, -⟩ := queueEmpty_cases h
  exact ⟨hsub, rfl⟩

/-! ## Eviction -/

theorem evictDropped_sweeps (l : List NodeId) :
    ∀ {ins : PtsServerIns} {del : Bool} {p : PtsServerIns × Bool},
      evictDropped l ins del = some p → Sweeps ins p.1 := by
  induction l with
  | nil =>
    intro ins del p h
    rw [← Option.some.inj h]
    exact .refl ins
  | cons n l ih =>
    intro ins del p h
    rw [evictDropped] at h
    split at h
    · obtain ⟨ins₁, hq, h⟩ := Option.bind_eq_some_iff.mp h
      have hdrop : Sweeps ins₁ { ins₁ with mLastDropIndex := ins₁.mLastDropIndex + 1 } :=
        ⟨.refl _, rfl⟩
      exact ((queueEmpty_sweeps hq).trans hdrop).trans (ih h)
    · exact ih h

theorem evictFirst_sweeps {ins ins' : PtsServerIns} (h : evictFirst ins = some ins') :
    Sweeps ins ins' := by
  unfold evictFirst at h
  split at h
  · exact nomatch h
  · exact queueEmpty_sweeps h

theorem checkinEvict_sweeps {ins ins' : PtsServerIns} (h : checkinEvict ins = some ins') :
    Sweeps ins ins' := by
  unfold checkinEvict at h
  split at h
  · obtain ⟨p, hd, h⟩ := Option.bind_eq_some_iff.mp h
    have hp := evictDropped_sweeps _ hd
    split at h
    · rw [← Option.some.inj h]
      exact hp
    · exact hp.trans (evictFirst_sweeps h)
  · rw [← Option.some.inj h]
    exact .refl ins

theorem checkinAptsEvict_sweeps {ins ins' : PtsServerIns} (h : checkinAptsEvict ins = some ins') :
    Sweeps ins ins' := by
  unfold checkinAptsEvict at h
  split at h
  · exact evictFirst_sweeps h
  · rw [← Option.some.inj h]
    exact .refl ins

theorem resetList_sweeps (l : List NodeId) :
    ∀ {ins ins' : PtsServerIns}, resetList l ins = some ins' → Sweeps ins ins' := by
  induction l with
  | nil =>
    intro ins ins' h
    rw [← Option.some.inj h]
    exact .refl ins
  | cons n l ih =>
    intro ins ins' h
    obtain ⟨ins₁, hq, h⟩ := Option.bind_eq_some_iff.mp h
    exact (queueEmpty_sweeps hq).trans (ih h)

/-! ## The search of a check-out -/

section

variable (cur offsetAbs : UInt32) (n : NodeId) (s : Scan)

theorem scanExpire_sweeps : Sweeps s.ins (scanExpire cur n s).ins := by
  unfold scanExpire
  dsimp only
  split
  · refine ⟨.refl _, ?_⟩
    have hnodes : (fun m => ((s.ins.setNode n { s.ins.nodes n with
        expiredCount := (s.ins.nodes n).expiredCount - 1 }).nodes m).rest) =
        fun m => (s.ins.nodes m).rest := by
      funext m
      by_cases hm : m = n
      · rw [hm]
        simp [PtsServerIns.setNode, PtsNode.rest]
      · simp [PtsServerIns.setNode, Function.update_of_ne hm]
    unfold PtsServerIns.rest
    rw [hnodes]
    rfl
  · exact .refl _

theorem scanFitPts_ins : (scanFitPts offsetAbs n s).ins = s.ins := by
  unfold scanFitPts
  dsimp only
  split <;> rfl

theorem scanFitOffset_sweeps : Sweeps s.ins (scanFitOffset cur offsetAbs n s).ins := by
  unfold scanFitOffset
  dsimp only
  split
  · dsimp only
    split <;> exact ⟨.refl _, rfl⟩
  · exact .refl _

theorem scanFind_ins : (scanFind cur n s).ins = s.ins := by
  unfold scanFind
  dsimp only
  split <;> rfl

theorem scanFit_sweeps : Sweeps s.ins (scanFit cur offsetAbs n s).ins := by
  unfold scanFit
  split
  · have hfind := scanFind_ins cur n (scanFitOffset cur offsetAbs n s)
    dsimp only
    split
    · show Sweeps s.ins (scanFind cur n (scanFitOffset cur offsetAbs n s)).ins
      rw [hfind]
      exact scanFitOffset_sweeps cur offsetAbs n s
    · rw [hfind]
      exact scanFitOffset_sweeps cur offsetAbs n s
  · split <;> exact .refl _

theorem scanRetry_ins : (scanRetry s).ins = s.ins := by
  unfold scanRetry
  split <;> rfl

end

theorem scanDrop_sweeps {offsetAbs : UInt32} {n : NodeId} {s s' : Scan}
    (h : scanDrop offsetAbs n s = some s') : Sweeps s.ins s'.ins := by
  unfold scanDrop at h
  split at h
  · obtain ⟨ins, hq, rfl⟩ := Option.map_eq_some_iff.mp h
    exact queueEmpty_sweeps hq
  · rw [← Option.some.inj h]
    exact .refl _

theorem scanNode_sweeps {cur : UInt32} {n : NodeId} {s s' : Scan}
    (h : scanNode cur n s = some s') : Sweeps s.ins s'.ins := by
  unfold scanNode at h
  obtain ⟨s₁, hd, rfl⟩ := Option.map_eq_some_iff.mp h
  have hfit := scanFit_sweeps cur (absInt (cur - (s.ins.nodes n).offset)) n
    (scanFitPts (absInt (cur - (s.ins.nodes n).offset)) n (scanExpire cur n s))
  rw [scanFitPts_ins] at hfit
  rw [scanRetry_ins]
  exact ((scanExpire_sweeps cur n s).trans hfit).trans (scanDrop_sweeps hd)

theorem scan_sweeps (cur : UInt32) (l : List NodeId) :
    ∀ {s s' : Scan}, scan cur l s = some s' → Sweeps s.ins s'.ins := by
  induction l with
  | nil =>
    intro s s' h
    rw [← Option.some.inj h]
    exact .refl _
  | cons n l ih =>
    intro s s' h
    obtain ⟨s₁, hn, h⟩ := Option.bind_eq_some_iff.mp h
    have h1 := scanNode_sweeps hn
    split at h
    · rw [← Option.some.inj h]
      exact h1
    · have h2 := ih h
      exact h1.trans h2

/-! ## The choice of a node -/

theorem choosePtsRest_sweeps (s : Scan) (c : Choice) :
    Sweeps c.ins (choosePtsMode.choosePtsRest s c).ins := by
  unfold choosePtsMode.choosePtsRest
  split <;> exact ⟨.refl _, rfl⟩

theorem choosePtsMode_sweeps (s : Scan) (c : Choice) : Sweeps c.ins (choosePtsMode s c).ins := by
  have hrest := choosePtsRest_sweeps s { c with find := true }
  unfold choosePtsMode
  split
  · dsimp only
    split
    · split
      · split <;> exact ⟨.refl _, rfl⟩
      · exact hrest
    · exact hrest
  · exact .refl _

theorem choose_sweeps (s : Scan) (c : Choice) : Sweeps c.ins (choose s c).ins := by
  unfold choose
  split
  · unfold chooseOffsetMode
    split <;> exact ⟨.refl _, rfl⟩
  · exact choosePtsMode_sweeps s c

theorem chooseRetry_ins (c : Choice) : (chooseRetry c).ins = c.ins := by
  unfold chooseRetry
  split <;> rfl

theorem chooseC2_ins (c : Choice) : (chooseC2 c).ins = c.ins := by
  unfold chooseC2
  split
  · dsimp only
    split <;> rfl
  · rfl

theorem takeChosen_sweeps {c c' : Choice} (h : takeChosen c = some c') :
    Sweeps c.ins c'.ins := by
  unfold takeChosen at h
  split at h
  · dsimp only at h
    obtain ⟨ins, hq, rfl⟩ := Option.map_eq_some_iff.mp h
    refine Sweeps.trans ?_ (queueEmpty_sweeps hq)
    split <;> exact ⟨.refl _, rfl⟩
  · rw [← Option.some.inj h]
    exact .refl _

theorem checkoutSearch_sweeps {c c' : Choice} (h : checkoutSearch c = some c') :
    Sweeps c.ins c'.ins := by
  obtain ⟨s, hs, h⟩ := Option.bind_eq_some_iff.mp h
  have hscan := scan_sweeps c.cur c.ins.ptsList hs
  have hchoose := choose_sweeps s { c with
    ins := s.ins, find := s.find, findPtn := s.findPtn, findIndex := s.findIndex }
  have htake := takeChosen_sweeps h
  refine (hscan.trans hchoose).trans (Sweeps.trans ⟨?_, ?_⟩ htake)
  · show (chooseC2 _).ins.ptsList.Sublist _
    rw [chooseC2_ins, chooseRetry_ins]
  · show (chooseC2 _).ins.rest = _
    rw [chooseC2_ins, chooseRetry_ins]

/-! ## The search of an audio check-out -/

theorem aptsScan_sweeps (cur threshold : UInt32) (l : List NodeId) :
    ∀ {s s' : AptsScan}, aptsScan cur threshold l s = some s' → Sweeps s.ins s'.ins := by
  induction l with
  | nil =>
    intro s s' h
    rw [← Option.some.inj h]
    exact .refl _
  | cons n l ih =>
    intro s s' h
    rw [aptsScan] at h
    dsimp only at h
    split at h
    · split at h
      · have h1 := ih h
        exact h1
      · have h1 := ih h
        exact h1
    · split at h
      · obtain ⟨ins, hq, h⟩ := Option.bind_eq_some_iff.mp h
        exact (queueEmpty_sweeps hq).trans (ih h)
      · split at h
        · rw [← Option.some.inj h]
          exact .refl _
        · have h1 := ih h
          exact h1

theorem aptsSearch_sweeps {cur : UInt32} {out : CheckoutAptsOffset} {ins : PtsServerIns}
    {p : PtsServerIns × CheckoutAptsOffset × Bool} (h : aptsSearch cur out ins = some p) :
    Sweeps ins p.1 := by
  obtain ⟨s, hs, h⟩ := Option.bind_eq_some_iff.mp h
  have hscan := aptsScan_sweeps _ _ _ hs
  split at h
  · rw [← Option.some.inj h]
    exact hscan
  · obtain ⟨ins₁, hq, h⟩ := Option.bind_eq_some_iff.mp h
    rw [← Option.some.inj h]
    exact hscan.trans (queueEmpty_sweeps hq)

end MediaModules.PtsServer
