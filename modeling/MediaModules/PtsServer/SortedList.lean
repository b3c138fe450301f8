import Mathlib.Tactic.Common
import MediaModules.PtsServer.Stored

/-!
# The order of the list in C2 mode

In C2 mode a video check-in links its node in front of the first one that is not earlier. What
leaves the list does not disturb the order, and the audio check-in does not look at it.
-/
namespace MediaModules.PtsServer

open MediaModules.Lib.NodeLists
open MediaModules.Lib.Run

/-- `pts_list` goes up by `pts_64`. -/
def SortedByPts64 (ins : PtsServerIns) : Prop :=
  ins.ptsList.Pairwise fun m n => (ins.nodes m).pts64 ≤ (ins.nodes n).pts64

instance (ins : PtsServerIns) : Decidable (SortedByPts64 ins) :=
  inferInstanceAs (Decidable (List.Pairwise _ _))

def Op.isAudioCheckin : Op → Bool
  | .checkinAptsSize _ => true
  | _ => false

/-- Nodes may have left the list; those that are left have their timestamps. -/
structure Thins (ins ins' : PtsServerIns) : Prop where
  list : ins'.ptsList.Sublist ins.ptsList
  pts64 : ∀ n, (ins'.nodes n).pts64 = (ins.nodes n).pts64

section

variable {ins ins' ins'' : PtsServerIns}

theorem Thins.refl (ins : PtsServerIns) : Thins ins ins := ⟨.refl _, fun _ => rfl⟩

theorem Thins.trans (h : Thins ins ins') (h' : Thins ins' ins'') : Thins ins ins'' :=
  ⟨h'.list.trans h.list, fun n => (h'.pts64 n).trans (h.pts64 n)⟩

theorem Sweeps.thins (h : Sweeps ins ins') : Thins ins ins' := ⟨h.list, h.pts64⟩

/-- The lists and the nodes are the same. -/
theorem Thins.of_eq (hl : ins'.ptsList = ins.ptsList) (hn : ins'.nodes = ins.nodes) :
    Thins ins ins' := by
  refine ⟨hl ▸ .refl _, fun n => ?_⟩
  rw [hn]

theorem Thins.sorted (h : Thins ins ins') (hs : SortedByPts64 ins) : SortedByPts64 ins' := by
  unfold SortedByPts64
  simp only [h.pts64]
  exact hs.sublist h.list

/-! ## Check-in -/

theorem checkinDone_thins (req : CheckinPtsSize) (isOffset : Bool) (offset : UInt32)
    (ins : PtsServerIns) : Thins ins (checkinDone req isOffset offset ins) :=
  .of_eq (checkinDone_samePool ..).list (checkinDone_nodes ..)

/-- The new node goes to its place. -/
theorem linked_sorted {req : CheckinPtsSize} {isOffset : Bool} {n : NodeId}
    (hn : n ∉ ins.ptsList) (hc2 : ins.setC2Mode = true) (hs : SortedByPts64 ins) :
    SortedByPts64 (linked req isOffset n ins) := by
  have hself : ((linked req isOffset n ins).nodes n).pts64 = req.pts64 := by
    rw [linked_node_self]
    rfl
  have hother : ∀ m ∈ ins.ptsList, (linked req isOffset n ins).nodes m = ins.nodes m := by
    intro m hm
    refine linked_node_of_ne fun he => hn ?_
    exact he ▸ hm
  have hold : ins.ptsList.Pairwise fun m k => ((linked req isOffset n ins).nodes m).pts64 ≤
      ((linked req isOffset n ins).nodes k).pts64 := by
    refine List.Pairwise.imp_of_mem ?_ hs
    intro m k hm hk hle
    rwa [hother m hm, hother k hk]
  refine insertBefore_pairwise (fun h h' => UInt64.le_trans h h') ?_ ?_ hold
  · intro m hm hstop
    rw [hself, hother m hm]
    rw [hc2] at hstop
    exact of_decide_eq_true hstop
  · intro m hm hpass
    rw [hself, hother m hm]
    rw [hc2] at hpass
    exact UInt64.le_of_lt (UInt64.not_le.mp (of_decide_eq_false hpass))

theorem checkinPtsSize_sorted {req : CheckinPtsSize} {isOffset : Bool} {r : Int} (h : Pooled ins)
    (hc2 : ins.setC2Mode = true) (hs : SortedByPts64 ins)
    (hcall : ptsserverCheckinPtsSize req isOffset ins = some (ins', r)) : SortedByPts64 ins' := by
  have hrecord (i : PtsServerIns) : Thins i (recordCheckin req isOffset i) := .of_eq rfl rfl
  by_cases hpts : req.pts = 0
  · obtain ⟨ins₁, he, hins⟩ := checkinPtsSize_piece hpts hcall
    have hthin := (checkinEvict_sweeps he).thins.trans (hrecord ins₁)
    rcases hins with ⟨-, rfl⟩ | ⟨-, offset, rfl⟩
    · exact (hthin.trans (.of_eq rfl rfl)).sorted hs
    · exact (hthin.trans (checkinDone_thins ..)).sorted hs
  · obtain ⟨ins₁, n, rest, he, hroom, hf, -, rfl⟩ := checkinPtsSize_head h hpts hcall
    have hsweep := checkinEvict_sweeps he
    refine (checkinDone_thins ..).sorted (linked_sorted ?_ ?_ ?_)
    · exact (first_free hroom.pooled hf).1
    · exact (hsweep.read PtsServerIns.setC2Mode fun _ => rfl).trans hc2
    · exact (hsweep.thins.trans (hrecord ins₁)).sorted hs

/-! ## The other calls -/

theorem checkoutFail_thins (c : Choice) : Thins c.ins (checkoutFail c).1 := by
  refine .of_eq (checkoutFail_samePool c).list ?_
  unfold checkoutFail extrapolate
  split
  · rfl
  · split <;> rfl

theorem checkoutDone_thins (duration : UInt32) (c : Choice) :
    Thins c.ins (checkoutDone duration c).1 := by
  refine .of_eq (checkoutDone_samePool duration c).list ?_
  show (frameDuration c.out c.ins).nodes = _
  unfold frameDuration
  split
  · split
    · rfl
    · have hcount : (frameDurationCount c.out c.ins).nodes = c.ins.nodes := by
        unfold frameDurationCount
        dsimp only
        split <;> rfl
      unfold frameDurationAdopt
      split <;> exact hcount
  · rfl

theorem checkoutPtsOffset_thins {req out : CheckoutPtsOffset}
    (hcall : ptsserverCheckoutPtsOffset req ins = some (ins', out)) : Thins ins ins' := by
  obtain ⟨c, hc, hout⟩ := Option.map_eq_some_iff.mp hcall
  have hsearch : Thins ins c.ins := by
    split at hc
    · exact (checkoutSearch_sweeps hc).thins
    · rw [← Option.some.inj hc]
      exact .refl ins
  apply hsearch.trans
  split at hout
  · have hins : (checkoutFail c).1 = ins' := congrArg Prod.fst hout
    exact hins ▸ checkoutFail_thins c
  · have hins : (checkoutDone _ c).1 = ins' := congrArg Prod.fst hout
    exact hins ▸ checkoutDone_thins _ c

theorem checkoutAptsOffset_thins {req out : CheckoutAptsOffset}
    (hcall : ptsserverCheckoutAptsOffset req ins = some (ins', out)) : Thins ins ins' := by
  obtain ⟨p, hp, hout⟩ := Option.map_eq_some_iff.mp hcall
  have hsearch : Thins ins p.1 := by
    split at hp
    · exact (aptsSearch_sweeps hp).thins
    · rw [← Option.some.inj hp]
      exact .refl ins
  refine hsearch.trans ?_
  have hins : (aptsResult _ p.1 p.2.1 p.2.2).1 = ins' := congrArg Prod.fst hout
  rw [← hins]
  refine .of_eq (aptsResult_samePool ..).list ?_
  unfold aptsResult
  split
  · rfl
  · split <;> rfl

theorem peekScan_nodes (cur : UInt32) (l : List NodeId) :
    ∀ s : PeekScan, (peekScan cur l s).ins.nodes = s.ins.nodes := by
  have hnode (n : NodeId) (s : PeekScan) : (peekNode cur n s).ins.nodes = s.ins.nodes := by
    unfold peekNode
    dsimp only
    split <;> split
    all_goals first
      | rfl
      | (dsimp only; split <;> rfl)
  induction l with
  | nil => exact fun s => rfl
  | cons n l ih =>
    intro s
    rw [peekScan]
    split
    · exact hnode n s
    · exact (ih _).trans (hnode n s)

theorem ptsserverPeekPtsOffset_thins (req : CheckoutPtsOffset) (ins : PtsServerIns) :
    Thins ins (ptsserverPeekPtsOffset req ins).1 := by
  refine .of_eq (ptsserverPeekPtsOffset_samePool req ins).list ?_
  unfold ptsserverPeekPtsOffset
  dsimp only
  split
  · exact peekScan_nodes _ _ _
  · rfl

/-- A call in C2 mode keeps the order. -/
theorem step_sorted {op : Op} (hop : op.isAudioCheckin = false) (h : Pooled ins) (hc2 : ins.setC2Mode = true)
    (hs : SortedByPts64 ins) (hstep : step ins op = some ins') : SortedByPts64 ins' := by
  cases op with
  | checkinAptsSize => exact nomatch hop
  | checkinPtsSize req isOffset =>
    obtain ⟨⟨i, r⟩, hcall, rfl⟩ := Option.map_eq_some_iff.mp hstep
    exact checkinPtsSize_sorted h hc2 hs hcall
  | checkoutPtsOffset req =>
    obtain ⟨⟨i, out⟩, hcall, rfl⟩ := Option.map_eq_some_iff.mp hstep
    exact (checkoutPtsOffset_thins hcall).sorted hs
  | checkoutAptsOffset req =>
    obtain ⟨⟨i, out⟩, hcall, rfl⟩ := Option.map_eq_some_iff.mp hstep
    exact (checkoutAptsOffset_thins hcall).sorted hs
  | peekPtsOffset req =>
    rw [← Option.some.inj hstep]
    exact (ptsserverPeekPtsOffset_thins req ins).sorted hs
  | setMode | setTrickMode | setFirstCheckinOffset | setAudioOffsetMargin =>
    rw [← Option.some.inj hstep]
    exact hs
  | insReset =>
    obtain ⟨ins₁, hreset, hins⟩ := Option.bind_eq_some_iff.mp hstep
    rw [← Option.some.inj hins]
    exact (resetList_sweeps _ hreset).thins.sorted hs

end

/-- From a moment at which the list of a reachable instance is empty, it is sorted after every
call, as long as C2 mode stays on and no audio is checked in. -/
theorem sorted_in_c2Mode {allocParm : AllocPara} {nodes : NodeId → PtsNode}
    {ins₀ ins : PtsServerIns} {ops₀ ops : List Op}
    (hr : run step (ptsserverInsInitSyncinfo allocParm (some nodes) ins₀).1 ops₀ = some ins)
    (hempty : ins.ptsList = [])
    (hc2 : Guarded step (fun s op => s.setC2Mode = true ∧ op.isAudioCheckin = false) ins ops) :
    Always step SortedByPts64 ins ops := by
  have hsorted : SortedByPts64 ins := by
    unfold SortedByPts64
    rw [hempty]
    exact List.Pairwise.nil
  have halways := always_of_guarded (P := fun s => Pooled s ∧ SortedByPts64 s)
    (fun s op s' hs hop hstep => ⟨(step_some_pooled hs.1 hstep).1,
      step_sorted hop.2 hs.1 hop.1 hs.2 hstep⟩) ⟨run_pooled hr, hsorted⟩ hc2
  exact halways.imp fun _ => And.right

/-- Three check-ins out of order, the last of which evicts, and a check-out. -/
theorem sorted_in_c2Mode_threeCheckins :
    ∃ ins, run step (emptyInstance 2) [.setMode true] = some ins ∧
      Always step SortedByPts64 ins
        [.checkinPtsSize ⟨100, 90, 3000⟩ true, .checkinPtsSize ⟨200, 180, 1000⟩ true,
          .checkinPtsSize ⟨300, 270, 2000⟩ true, .checkoutPtsOffset ⟨310, 0, 0⟩] :=
  ⟨ptsserverSetMode true (emptyInstance 2), rfl,
    sorted_in_c2Mode
      (show run step (emptyInstance 2) [.setMode true] = some (ptsserverSetMode true (emptyInstance 2))
        from rfl) rfl (by decide +kernel)⟩

/-- Two audio check-ins in C2 mode, the second earlier than the first. -/
theorem audioCheckins_unsorted :
    ∃ ins, run step (emptyInstance 2) [.setMode true] = some ins ∧ ins.ptsList = [] ∧
      Guarded step (fun s _ => s.setC2Mode = true) ins
        [.checkinAptsSize ⟨100, 10, 180, 2000⟩, .checkinAptsSize ⟨200, 10, 90, 1000⟩] ∧
      ¬ Always step SortedByPts64 ins
        [.checkinAptsSize ⟨100, 10, 180, 2000⟩, .checkinAptsSize ⟨200, 10, 90, 1000⟩] := by
  refine ⟨ptsserverSetMode true (emptyInstance 2), rfl, rfl, by decide +kernel, fun halways => ?_⟩
  have hread : (run step (ptsserverSetMode true (emptyInstance 2))
      [.checkinAptsSize ⟨100, 10, 180, 2000⟩, .checkinAptsSize ⟨200, 10, 90, 1000⟩]).map (fun s =>
        decide (SortedByPts64 s)) = some false := by decide +kernel
  obtain ⟨ins, hrun, hins⟩ := Option.map_eq_some_iff.mp hread
  exact of_decide_eq_false hins (always_last halways hrun)

end MediaModules.PtsServer
