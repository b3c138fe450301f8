import Mathlib.Tactic.Common
import MediaModules.PtsServer.SortedList

/-!
# The chances of a node

A video check-in gives its node as many chances as `MAX_EXPIRED_COUNT`, and a check-out that finds the node
behind in offset and in time takes one. A node without chances is dropped, unless the search holds it; the
next check-out counts it down through zero. An audio check-in leaves the chances that the node has.
-/
namespace MediaModules.PtsServer

open MediaModules.Lib.NodeLists
open MediaModules.Lib.Run

/-- The node is behind the request in offset, and behind the last check-out in time. -/
def Stale (cur : UInt32) (ins : PtsServerIns) (n : NodeId) : Prop :=
  ((ins.nodes n).offset = 0xffffffff ∨ (ins.nodes n).offset < cur) ∧
    ((ins.nodes n).pts64 < ins.mLastCheckoutPts64 ∨ (ins.nodes n).invalid = true)

instance (cur : UInt32) (ins : PtsServerIns) (n : NodeId) : Decidable (Stale cur ins n) :=
  inferInstanceAs (Decidable (_ ∧ _))

/-- An instance, with how many check-outs have counted each node down since its check-in. -/
structure AgedIns where
  ins : PtsServerIns
  aged : NodeId → Nat := fun _ => 0

def AgedIns.next (s : AgedIns) (op : Op) (ins' : PtsServerIns) : NodeId → Nat :=
  match op with
  | .checkinPtsSize _ _ | .checkinAptsSize _ => fun n =>
    if n ∈ s.ins.ptsList ∧ ins'.nodes n = s.ins.nodes n then s.aged n else 0
  | .checkoutPtsOffset _ => fun n =>
    if (ins'.nodes n).expiredCount = (s.ins.nodes n).expiredCount then s.aged n else s.aged n + 1
  | _ => s.aged

def agedStep (s : AgedIns) (op : Op) : Option AgedIns :=
  (step s.ins op).map fun ins' => { ins := ins', aged := s.next op ins' }

/-- No node has more chances than it was given, or was counted down more often. -/
def InChances (s : AgedIns) : Prop := ∀ n ∈ s.ins.ptsList,
  (s.ins.nodes n).expiredCount ≤ maxExpiredCount ∧ s.aged n ≤ maxExpiredCount.toNat

/-- A check-out finds no stale node without chances, and an audio check-in a free node with no more than a
video check-in gives. -/
def ChancesLeft (s : AgedIns) : Op → Prop
  | .checkoutPtsOffset req => req.offset.toUInt32 ≠ 0xffffffff →
    ∀ n ∈ s.ins.ptsList, Stale req.offset.toUInt32 s.ins n → (s.ins.nodes n).expiredCount ≠ 0
  | .checkinAptsSize _ => ∀ n ∈ s.ins.ptsFreeList.head?, (s.ins.nodes n).expiredCount ≤ maxExpiredCount
  | _ => True

instance (s : AgedIns) : (op : Op) → Decidable (ChancesLeft s op)
  | .checkoutPtsOffset _ => inferInstanceAs (Decidable (_ → ∀ n ∈ s.ins.ptsList, _ → _))
  | .checkinAptsSize _ => inferInstanceAs (Decidable (∀ n ∈ s.ins.ptsFreeList.head?, _))
  | .checkinPtsSize _ _ | .checkoutAptsOffset _ | .peekPtsOffset _ | .setMode _ | .setTrickMode _
  | .setFirstCheckinOffset _ | .setAudioOffsetMargin _ | .insReset => inferInstanceAs (Decidable True)

/-- What a node was given is what it has and what it lost. -/
structure Chances (s : AgedIns) : Prop where
  pooled : Pooled s.ins
  sum : ∀ n ∈ s.ins.ptsList, (s.ins.nodes n).expiredCount.toNat + s.aged n ≤ maxExpiredCount.toNat

theorem Chances.inChances {s : AgedIns} (h : Chances s) : InChances s := fun n hn =>
  have hsum := h.sum n hn
  ⟨UInt32.le_iff_toNat_le.mpr (by omega), by omega⟩

/-! ## Nodes that stay as they are -/

section

variable {ins ins' : PtsServerIns} {n : NodeId}

theorem queueEmpty_nodes (h : ins.queueEmpty n = some ins') : ins'.nodes = ins.nodes := by
  obtain ⟨l, f, k, rfl, -⟩ := queueEmpty_cases h
  rfl

theorem evictDropped_nodes (l : List NodeId) :
    ∀ {ins : PtsServerIns} {del : Bool} {p : PtsServerIns × Bool},
      evictDropped l ins del = some p → p.1.nodes = ins.nodes := by
  induction l with
  | nil =>
    intro ins del p h
    rw [← Option.some.inj h]
  | cons n l ih =>
    intro ins del p h
    rw [evictDropped] at h
    split at h
    · obtain ⟨ins₁, hq, h⟩ := Option.bind_eq_some_iff.mp h
      have hrest := ih h
      have hnodes := queueEmpty_nodes hq
      exact hrest.trans hnodes
    · exact ih h

theorem evictFirst_nodes (h : evictFirst ins = some ins') : ins'.nodes = ins.nodes := by
  unfold evictFirst at h
  split at h
  · exact nomatch h
  · exact queueEmpty_nodes h

theorem checkinEvict_nodes (h : checkinEvict ins = some ins') : ins'.nodes = ins.nodes := by
  unfold checkinEvict at h
  split at h
  · obtain ⟨p, hd, h⟩ := Option.bind_eq_some_iff.mp h
    have hp := evictDropped_nodes _ hd
    split at h
    · rw [← Option.some.inj h]
      exact hp
    · exact (evictFirst_nodes h).trans hp
  · rw [← Option.some.inj h]

theorem checkinAptsEvict_nodes (h : checkinAptsEvict ins = some ins') : ins'.nodes = ins.nodes := by
  unfold checkinAptsEvict at h
  split at h
  · exact evictFirst_nodes h
  · rw [← Option.some.inj h]

theorem resetList_nodes (l : List NodeId) :
    ∀ {ins ins' : PtsServerIns}, resetList l ins = some ins' → ins'.nodes = ins.nodes := by
  induction l with
  | nil =>
    intro ins ins' h
    rw [← Option.some.inj h]
  | cons n l ih =>
    intro ins ins' h
    obtain ⟨ins₁, hq, h⟩ := Option.bind_eq_some_iff.mp h
    exact (ih h).trans (queueEmpty_nodes hq)

theorem aptsScan_nodes (cur threshold : UInt32) (l : List NodeId) :
    ∀ {s s' : AptsScan}, aptsScan cur threshold l s = some s' → s'.ins.nodes = s.ins.nodes := by
  induction l with
  | nil =>
    intro s s' h
    rw [← Option.some.inj h]
  | cons n l ih =>
    intro s s' h
    rw [aptsScan] at h
    dsimp only at h
    split at h
    · split at h
      · have h1 := ih h
        exact h1
      · have h1 := ih h
        exact h1
    · split at h
      · obtain ⟨ins, hq, h⟩ := Option.bind_eq_some_iff.mp h
        have hrest := ih h
        have hnodes := queueEmpty_nodes hq
        exact hrest.trans hnodes
      · split at h
        · rw [← Option.some.inj h]
        · have h1 := ih h
          exact h1

theorem aptsSearch_nodes {cur : UInt32} {out : CheckoutAptsOffset}
    {p : PtsServerIns × CheckoutAptsOffset × Bool} (h : aptsSearch cur out ins = some p) :
    p.1.nodes = ins.nodes := by
  obtain ⟨s, hs, h⟩ := Option.bind_eq_some_iff.mp h
  have hscan := aptsScan_nodes _ _ _ hs
  split at h
  · rw [← Option.some.inj h]
    exact hscan
  · obtain ⟨ins₁, hq, h⟩ := Option.bind_eq_some_iff.mp h
    rw [← Option.some.inj h]
    exact (queueEmpty_nodes hq).trans hscan

theorem aptsResult_nodes (cur : UInt32) (ins : PtsServerIns) (out : CheckoutAptsOffset) (find : Bool) :
    (aptsResult cur ins out find).1.nodes = ins.nodes := by
  unfold aptsResult
  split
  · rfl
  · split <;> rfl

theorem checkoutAptsOffset_nodes {req out : CheckoutAptsOffset}
    (hcall : ptsserverCheckoutAptsOffset req ins = some (ins', out)) : ins'.nodes = ins.nodes := by
  obtain ⟨p, hp, hout⟩ := Option.map_eq_some_iff.mp hcall
  have hins : (aptsResult _ p.1 p.2.1 p.2.2).1 = ins' := congrArg Prod.fst hout
  rw [← hins, aptsResult_nodes]
  split at hp
  · exact aptsSearch_nodes hp
  · rw [← Option.some.inj hp]

theorem choose_nodes (s : Scan) (c : Choice) : (choose s c).ins.nodes = c.ins.nodes := by
  have hrest (c : Choice) : (choosePtsMode.choosePtsRest s c).ins.nodes = c.ins.nodes := by
    unfold choosePtsMode.choosePtsRest
    split <;> rfl
  unfold choose
  split
  · unfold chooseOffsetMode
    split <;> rfl
  · unfold choosePtsMode
    split
    · dsimp only
      split
      · split
        · split <;> rfl
        · exact hrest _
      · exact hrest _
    · rfl

theorem takeChosen_nodes {c c' : Choice} (h : takeChosen c = some c') : c'.ins.nodes = c.ins.nodes := by
  unfold takeChosen at h
  split at h
  · dsimp only at h
    obtain ⟨ins, hq, rfl⟩ := Option.map_eq_some_iff.mp h
    refine (queueEmpty_nodes hq).trans ?_
    split <;> rfl
  · rw [← Option.some.inj h]

theorem checkoutFail_nodes (c : Choice) : (checkoutFail c).1.nodes = c.ins.nodes := by
  unfold checkoutFail extrapolate
  split
  · rfl
  · split <;> rfl

theorem checkoutDone_nodes (duration : UInt32) (c : Choice) :
    (checkoutDone duration c).1.nodes = c.ins.nodes := by
  show (frameDuration c.out c.ins).nodes = _
  unfold frameDuration
  split
  · split
    · rfl
    · have hcount : (frameDurationCount c.out c.ins).nodes = c.ins.nodes := by
        unfold frameDurationCount
        dsimp only
        split <;> rfl
      unfold frameDurationAdopt
      split <;> exact hcount
  · rfl

end

/-! ## Counting down -/

section

variable {cur offsetAbs : UInt32} {ins ins' : PtsServerIns} {n m : NodeId} {s s' : Scan}

theorem Sweeps.stale (h : Sweeps ins ins') : Stale cur ins' n ↔ Stale cur ins n := by
  have hnode := h.node n
  have hoffset : (ins'.nodes n).offset = (ins.nodes n).offset := (congrArg PtsNode.offset hnode :)
  have hpts : (ins'.nodes n).pts90k = (ins.nodes n).pts90k := (congrArg PtsNode.pts90k hnode :)
  have hlast : ins'.mLastCheckoutPts64 = ins.mLastCheckoutPts64 :=
    h.read PtsServerIns.mLastCheckoutPts64 fun _ => rfl
  unfold Stale PtsNode.invalid
  rw [hoffset, hpts, h.pts64 n, hlast]

/-- The chances of a node behind a part of the search: as they were, or one less when it is stale. -/
def CountsDown (cur : UInt32) (ins ins' : PtsServerIns) (n : NodeId) : Prop :=
  (ins'.nodes n).expiredCount = (ins.nodes n).expiredCount ∨
    Stale cur ins n ∧ (ins'.nodes n).expiredCount = (ins.nodes n).expiredCount - 1

theorem scanExpire_counts : CountsDown cur s.ins (scanExpire cur n s).ins n ∧
    ∀ m, m ≠ n → (scanExpire cur n s).ins.nodes m = s.ins.nodes m := by
  unfold scanExpire
  dsimp only
  split
  · next hstale =>
    refine ⟨Or.inr ⟨hstale, ?_⟩, fun m hm => Function.update_of_ne hm ..⟩
    simp only [PtsServerIns.setNode, Function.update_self]
  · exact ⟨Or.inl rfl, fun m _ => rfl⟩

theorem scanFit_nodes : (scanFit cur offsetAbs n s).ins.nodes = s.ins.nodes := by
  have hoffset : (scanFitOffset cur offsetAbs n s).ins.nodes = s.ins.nodes := by
    unfold scanFitOffset
    dsimp only
    split
    · dsimp only
      split <;> rfl
    · rfl
  unfold scanFit
  split
  · dsimp only
    split <;> rw [scanFind_ins, hoffset]
  · split <;> rfl

theorem scanDrop_nodes (h : scanDrop offsetAbs n s = some s') : s'.ins.nodes = s.ins.nodes := by
  unfold scanDrop at h
  split at h
  · obtain ⟨ins, hq, rfl⟩ := Option.map_eq_some_iff.mp h
    exact queueEmpty_nodes hq
  · rw [← Option.some.inj h]

theorem scanNode_counts (h : scanNode cur n s = some s') :
    CountsDown cur s.ins s'.ins n ∧ ∀ m, m ≠ n → s'.ins.nodes m = s.ins.nodes m := by
  obtain ⟨s₁, hdrop, rfl⟩ := Option.map_eq_some_iff.mp h
  have hnodes : (scanRetry s₁).ins.nodes = (scanExpire cur n s).ins.nodes := by
    rw [scanRetry_ins, scanDrop_nodes hdrop, scanFit_nodes, scanFitPts_ins]
  unfold CountsDown
  rw [hnodes]
  exact scanExpire_counts

/-- The search comes to a node once. -/
theorem scan_counts (l : List NodeId) (hl : l.Nodup) :
    ∀ {s s' : Scan}, scan cur l s = some s' → ∀ m, CountsDown cur s.ins s'.ins m ∧
      (m ∉ l → s'.ins.nodes m = s.ins.nodes m) := by
  induction l with
  | nil =>
    intro s s' h m
    rw [← Option.some.inj h]
    exact ⟨Or.inl rfl, fun _ => rfl⟩
  | cons n l ih =>
    intro s s' h m
    obtain ⟨hn, hl⟩ := List.nodup_cons.mp hl
    obtain ⟨s₁, hnode, h⟩ := Option.bind_eq_some_iff.mp h
    obtain ⟨hcount, hother⟩ := scanNode_counts hnode
    have hsweep := scanNode_sweeps hnode
    split at h
    · rw [← Option.some.inj h]
      by_cases hm : m = n
      · exact ⟨hm ▸ hcount, fun hno => absurd (hm ▸ List.mem_cons_self) hno⟩
      · exact ⟨Or.inl (congrArg PtsNode.expiredCount (hother m hm)), fun _ => hother m hm⟩
    · obtain ⟨hrest, hsame⟩ := ih hl h m
      by_cases hm : m = n
      · have heq := hsame (hm ▸ hn)
        refine ⟨?_, fun hno => absurd (hm ▸ List.mem_cons_self) hno⟩
        unfold CountsDown
        rw [heq, hm]
        exact hcount
      · have heq : s₁.ins.nodes m = s.ins.nodes m := hother m hm
        refine ⟨?_, fun hno => (hsame fun hmem => hno (List.mem_cons_of_mem n hmem)).trans heq⟩
        have hstale : Stale cur s₁.ins m ↔ Stale cur s.ins m := hsweep.stale
        unfold CountsDown
        rw [← heq, ← hstale]
        exact hrest

theorem checkoutSearch_counts {c c' : Choice} (hp : c.ins.ptsList.Nodup) (h : checkoutSearch c = some c')
    (m : NodeId) : CountsDown c.cur c.ins c'.ins m := by
  obtain ⟨s, hs, h⟩ := Option.bind_eq_some_iff.mp h
  have hcount := (scan_counts c.ins.ptsList hp hs m).1
  have hnodes : c'.ins.nodes = s.ins.nodes := by
    rw [takeChosen_nodes h]
    show (chooseC2 _).ins.nodes = _
    rw [chooseC2_ins, chooseRetry_ins, choose_nodes]
  unfold CountsDown
  rw [hnodes]
  exact hcount

/-- What a check-out does to the chances of the nodes. -/
theorem checkoutPtsOffset_counts {req out : CheckoutPtsOffset} (hp : ins.ptsList.Nodup)
    (hcall : ptsserverCheckoutPtsOffset req ins = some (ins', out)) (m : NodeId) :
    (ins'.nodes m).expiredCount = (ins.nodes m).expiredCount ∨
      req.offset.toUInt32 ≠ 0xffffffff ∧ Stale req.offset.toUInt32 ins m ∧
        (ins'.nodes m).expiredCount = (ins.nodes m).expiredCount - 1 := by
  obtain ⟨c, hc, hout⟩ := Option.map_eq_some_iff.mp hcall
  have hnodes : ins'.nodes = c.ins.nodes := by
    split at hout
    · have hins : (checkoutFail c).1 = ins' := congrArg Prod.fst hout
      rw [← hins, checkoutFail_nodes]
    · have hins : (checkoutDone _ c).1 = ins' := congrArg Prod.fst hout
      rw [← hins, checkoutDone_nodes]
  rw [hnodes]
  split at hc
  · next hcur =>
    rcases checkoutSearch_counts hp hc m with hsame | ⟨hstale, hless⟩
    · exact Or.inl hsame
    · exact Or.inr ⟨hcur.1, hstale, hless⟩
  · rw [← Option.some.inj hc]
    exact Or.inl rfl

end

/-! ## Runs -/

section

variable {s s' : AgedIns} {ins' : PtsServerIns} {op : Op}

/-- Nothing is given and nothing is lost. -/
theorem Chances.same (h : Chances s) (hp : Pooled ins') (hnodes : ins'.nodes = s.ins.nodes)
    (hlist : ∀ n ∈ ins'.ptsList, n ∈ s.ins.ptsList) : Chances { ins := ins', aged := s.aged } := by
  refine ⟨hp, fun n hn => ?_⟩
  show (ins'.nodes n).expiredCount.toNat + _ ≤ _
  rw [hnodes]
  exact h.sum n (hlist n hn)

/-- A check-in may take a node, with no more chances than a video check-in gives. -/
theorem Chances.taken (h : Chances s) (hp : Pooled ins')
    (hlist : ∀ n ∈ ins'.ptsList, (n ∈ s.ins.ptsList ∧ ins'.nodes n = s.ins.nodes n) ∨
      (ins'.nodes n).expiredCount ≤ maxExpiredCount) :
    Chances { ins := ins', aged := fun n =>
      if n ∈ s.ins.ptsList ∧ ins'.nodes n = s.ins.nodes n then s.aged n else 0 } := by
  refine ⟨hp, fun n hn => ?_⟩
  show (ins'.nodes n).expiredCount.toNat +
    (if n ∈ s.ins.ptsList ∧ ins'.nodes n = s.ins.nodes n then s.aged n else 0) ≤ _
  split
  · next hsame =>
    rw [hsame.2]
    exact h.sum n hsame.1
  · next hnew =>
    rcases hlist n hn with hold | hcount
    · exact absurd hold hnew
    · exact UInt32.le_iff_toNat_le.mp hcount

theorem checkinDone_list (req : CheckinPtsSize) (isOffset : Bool) (offset : UInt32) (ins : PtsServerIns) :
    (checkinDone req isOffset offset ins).ptsList = ins.ptsList := (checkinDone_samePool ..).list

theorem checkinPts_chances {req : CheckinPtsSize} {isOffset : Bool} {r : Int} (h : Chances s)
    (hp : Pooled ins') (hs : ptsserverCheckinPtsSize req isOffset s.ins = some (ins', r)) :
    Chances { ins := ins', aged := s.next (.checkinPtsSize req isOffset) ins' } := by
  refine h.taken hp fun m hm => ?_
  by_cases hpts : req.pts = 0
  · obtain ⟨ins₁, he, hpiece⟩ := checkinPtsSize_piece hpts hs
    have hsame : ins'.nodes = ins₁.nodes ∧ ins'.ptsList = ins₁.ptsList := by
      rcases hpiece with ⟨-, rfl⟩ | ⟨-, offset, rfl⟩
      · exact ⟨rfl, rfl⟩
      · exact ⟨checkinDone_nodes .., checkinDone_list ..⟩
    rw [hsame.2] at hm
    exact Or.inl ⟨(checkinEvict_sweeps he).list.subset hm, by rw [hsame.1, checkinEvict_nodes he]⟩
  · obtain ⟨ins₁, n, rest, he, hroom, hf, -, rfl⟩ := checkinPtsSize_head h.pooled hpts hs
    rw [checkinDone_list, mem_linked] at hm
    rw [checkinDone_nodes]
    by_cases hn : m = n
    · rw [hn, linked_node_self]
      exact Or.inr (Nat.le_refl _)
    · rw [linked_node_of_ne hn]
      have hold : m ∈ ins₁.ptsList := hm.resolve_left hn
      exact Or.inl ⟨(checkinEvict_sweeps he).list.subset hold,
        congrFun (checkinEvict_nodes he) m⟩

theorem checkinAptsEvict_free {ins ins₁ : PtsServerIns} {n : NodeId} {rest : List NodeId}
    (h : Pooled ins) (he : checkinAptsEvict ins = some ins₁) (hf : ins₁.ptsFreeList = n :: rest) :
    n ∈ ins.ptsFreeList.head? ∨ n ∈ ins.ptsList := by
  unfold checkinAptsEvict at he
  split at he
  · unfold evictFirst at he
    split at he
    · exact nomatch he
    · next m tail hlist =>
      have hm : m ∈ ins.ptsList := by
        rw [hlist]
        exact List.mem_cons_self
      rw [(queueEmpty_eq h hm).1] at he
      rw [← Option.some.inj he] at hf
      have happend : ins.ptsFreeList ++ [m] = n :: rest := hf
      cases hfree : ins.ptsFreeList with
      | nil =>
        rw [hfree, List.nil_append] at happend
        exact Or.inr ((List.cons.inj happend).1 ▸ hm)
      | cons k free =>
        rw [hfree, List.cons_append] at happend
        exact Or.inl (congrArg some (List.cons.inj happend).1)
  · rw [← Option.some.inj he] at hf
    rw [hf]
    exact Or.inl rfl

theorem checkinApts_chances {req : CheckinAptsSize} {r : Int} (h : Chances s)
    (hleft : ChancesLeft s (.checkinAptsSize req)) (hp : Pooled ins')
    (hs : ptsserverCheckinAptsSize req s.ins = some (ins', r)) :
    Chances { ins := ins', aged := s.next (.checkinAptsSize req) ins' } := by
  obtain ⟨ins₁, n, rest, he, hroom, hf, rfl⟩ := checkinAptsSize_cases h.pooled hs
  have hnodes : (checkinAptsDone req (appended req n ins₁)).nodes = (appended req n ins₁).nodes := by
    unfold checkinAptsDone recordFirstApts
    split <;> rfl
  have hlist := (checkinAptsDone_samePool req (appended req n ins₁)).list
  refine h.taken hp fun m hm => ?_
  rw [hlist] at hm
  rw [hnodes]
  have hold : m = n ∨ m ∈ ins₁.ptsList := mem_insertBefore.mp hm
  by_cases hn : m = n
  · have hcount : ((appended req n ins₁).nodes m).expiredCount = (s.ins.nodes n).expiredCount := by
      rw [hn, ← checkinAptsEvict_nodes he]
      simp only [appended, Function.update_self]
    rw [hcount]
    rcases checkinAptsEvict_free h.pooled he hf with hfree | hused
    · exact Or.inr (hleft n hfree)
    · have hsum := h.sum n hused
      exact Or.inr (UInt32.le_iff_toNat_le.mpr (by omega))
  · have hsame : (appended req n ins₁).nodes m = ins₁.nodes m := Function.update_of_ne hn ..
    exact Or.inl ⟨(checkinAptsEvict_sweeps he).list.subset (hold.resolve_left hn),
      hsame.trans (congrFun (checkinAptsEvict_nodes he) m)⟩

theorem checkoutPts_chances {req out : CheckoutPtsOffset} (h : Chances s)
    (hleft : ChancesLeft s (.checkoutPtsOffset req)) (hp : Pooled ins')
    (hs : ptsserverCheckoutPtsOffset req s.ins = some (ins', out)) :
    Chances { ins := ins', aged := s.next (.checkoutPtsOffset req) ins' } := by
  refine ⟨hp, fun n hn => ?_⟩
  have hold : n ∈ s.ins.ptsList := (checkoutPtsOffset_thins hs).list.subset hn
  have hsum := h.sum n hold
  show (ins'.nodes n).expiredCount.toNat +
    (if (ins'.nodes n).expiredCount = (s.ins.nodes n).expiredCount then s.aged n else s.aged n + 1) ≤ _
  rcases checkoutPtsOffset_counts h.pooled.list_nodup hs n with hsame | ⟨hcur, hstale, hless⟩
  · rw [if_pos hsame, hsame]
    exact hsum
  · have hchance := hleft hcur n hold hstale
    have hpos : 1 ≤ (s.ins.nodes n).expiredCount := by
      rw [UInt32.le_iff_toNat_le]
      exact Nat.pos_of_ne_zero fun hzero => hchance (UInt32.toNat_inj.mp hzero)
    have hnat := UInt32.toNat_sub_of_le _ _ hpos
    have hone : (1 : UInt32).toNat = 1 := rfl
    rw [hless, hnat, hone]
    split
    · exact Nat.le_trans (Nat.add_le_add_right (Nat.sub_le _ _) _) hsum
    · have hge : 1 ≤ (s.ins.nodes n).expiredCount.toNat := UInt32.le_iff_toNat_le.mp hpos
      omega

/-- A call that meets its guard keeps what was given. -/
theorem chances_step (h : Chances s) (hleft : ChancesLeft s op) (hs : agedStep s op = some s') :
    Chances s' := by
  obtain ⟨ins', hstep, rfl⟩ := Option.map_eq_some_iff.mp hs
  have hp := (step_some_pooled h.pooled hstep).1
  cases op with
  | checkinPtsSize req isOffset =>
    obtain ⟨⟨i, r⟩, hcall, rfl⟩ := Option.map_eq_some_iff.mp hstep
    exact checkinPts_chances h hp hcall
  | checkinAptsSize req =>
    obtain ⟨⟨i, r⟩, hcall, rfl⟩ := Option.map_eq_some_iff.mp hstep
    exact checkinApts_chances h hleft hp hcall
  | checkoutPtsOffset req =>
    obtain ⟨⟨i, out⟩, hcall, rfl⟩ := Option.map_eq_some_iff.mp hstep
    exact checkoutPts_chances h hleft hp hcall
  | checkoutAptsOffset req =>
    obtain ⟨⟨i, out⟩, hcall, rfl⟩ := Option.map_eq_some_iff.mp hstep
    exact h.same hp (checkoutAptsOffset_nodes hcall) (checkoutAptsOffset_thins hcall).list.subset
  | peekPtsOffset req =>
    obtain rfl := Option.some.inj hstep
    refine h.same hp ?_ (ptsserverPeekPtsOffset_thins req s.ins).list.subset
    unfold ptsserverPeekPtsOffset
    dsimp only
    split
    · exact peekScan_nodes _ _ _
    · rfl
  | setMode | setTrickMode | setFirstCheckinOffset | setAudioOffsetMargin =>
    obtain rfl := Option.some.inj hstep
    exact h.same hp rfl fun _ hn => hn
  | insReset =>
    obtain ⟨ins₁, hreset, hins⟩ := Option.bind_eq_some_iff.mp hstep
    rw [← Option.some.inj hins] at hp ⊢
    have hnodes := resetList_nodes _ hreset
    have hlist := (resetList_sweeps _ hreset).list.subset
    exact h.same hp hnodes hlist

end

/-- In a run whose check-outs find no stale node without chances, and whose audio check-ins find a free node
with no more than a video check-in gives, no node has more, or was counted down more often. -/
theorem in_chances_along (allocParm : AllocPara) (nodes : NodeId → PtsNode) (ins : PtsServerIns)
    (ops : List Op)
    (hleft : Guarded agedStep ChancesLeft
      { ins := (ptsserverInsInitSyncinfo allocParm (some nodes) ins).1 } ops) :
    Always agedStep InChances { ins := (ptsserverInsInitSyncinfo allocParm (some nodes) ins).1 } ops := by
  have hstart : Chances { ins := (ptsserverInsInitSyncinfo allocParm (some nodes) ins).1 } :=
    ⟨init_pooled allocParm nodes ins, fun n hn => absurd hn List.not_mem_nil⟩
  exact (always_of_guarded (fun _ _ _ h hok hs => chances_step h hok hs) hstart hleft).imp
    fun _ h => h.inChances

/-- Three check-ins, a check-out of the second and one that finds nothing. -/
def countedDown : List Op :=
  [.checkinPtsSize ⟨100, 90, 1000⟩ true, .checkinPtsSize ⟨200, 180, 20000⟩ true,
    .checkinPtsSize ⟨300, 270, 30000⟩ true, .checkoutPtsOffset ⟨210, 0, 0⟩,
    .checkoutPtsOffset ⟨100000, 0, 0⟩]

theorem in_chances_countedDown :
    Always agedStep InChances { ins := emptyInstance 4 } countedDown :=
  in_chances_along ⟨4, 2500, 5⟩ (fun _ => ⟨0, 0, 0, 0, 0, 0⟩) (.zero fun _ => ⟨0, 0, 0, 0, 0, 0⟩)
    countedDown (by decide +kernel)

/-- The first node is counted down to nothing, spared as the nearest by offset in a check-out that takes the
third, and counted down once more. -/
def countedThrough : List Op :=
  countedDown ++ List.replicate 298 (.checkoutPtsOffset ⟨100000, 0, 0⟩) ++
    [.checkoutPtsOffset ⟨310, 0, 0⟩, .checkoutPtsOffset ⟨100000, 0, 0⟩]

theorem chances_wrap : ¬ Always agedStep InChances { ins := emptyInstance 4 } countedThrough := by
  intro halways
  have hread : (run agedStep { ins := emptyInstance 4 } countedThrough).map (fun s =>
      (s.ins.ptsList, (s.ins.nodes 0).expiredCount)) = some ([0], 0xffffffff) := by decide +kernel
  obtain ⟨s, hrun, hs⟩ := Option.map_eq_some_iff.mp hread
  obtain ⟨hlist, hcount⟩ := Prod.mk.inj hs
  have hle := (always_last halways hrun 0 (by rw [hlist]; exact List.mem_cons_self)).1
  rw [hcount] at hle
  exact absurd hle (by decide)

end MediaModules.PtsServer
