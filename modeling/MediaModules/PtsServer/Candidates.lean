import Mathlib.Tactic.Common
import MediaModules.PtsServer.Pool

/-!
# Candidates stay in the list

The searches of a check-out hold up to three nodes while they drop others. Every node held is
in `pts_list` when the choice is made, so the chosen one can be moved. With the check-ins and
the reset this gives the partition of the nodes over every run.
-/
namespace MediaModules.PtsServer

open MediaModules.Lib.NodeLists
open MediaModules.Lib.Run

/-! ## The search of a check-out -/

/-- The search holds the node. -/
def Scan.Candidate (s : Scan) (n : NodeId) : Prop :=
  s.findPtn = some n ∨ s.fitOffsetPtn = some n ∨ s.fitPtsPtn = some n

/-- A part of the loop body that may make the node it is at a candidate. -/
structure Looks (n : NodeId) (s s' : Scan) : Prop where
  pool : SamePool s.ins s'.ins
  held : ∀ m, s'.Candidate m → s.Candidate m ∨ m = n

namespace Looks

variable {n : NodeId} {s s' s'' : Scan}

theorem refl (s : Scan) : Looks n s s := ⟨.refl _, fun _ => .inl⟩

theorem trans (h : Looks n s s') (h' : Looks n s' s'') : Looks n s s'' :=
  ⟨h.pool.trans h'.pool, fun m hm => (h'.held m hm).elim (h.held m) .inr⟩

/-- The candidates are not touched. -/
theorem of_eq (hp : SamePool s.ins s'.ins) (hf : s'.findPtn = s.findPtn)
    (ho : s'.fitOffsetPtn = s.fitOffsetPtn) (ht : s'.fitPtsPtn = s.fitPtsPtn) : Looks n s s' := by
  refine ⟨hp, fun m hm => .inl ?_⟩
  unfold Scan.Candidate at hm ⊢
  rwa [hf, ho, ht] at hm

end Looks

section

variable (cur offsetAbs : UInt32) (n : NodeId) (s : Scan)

theorem scanExpire_looks : Looks n s (scanExpire cur n s) := by
  unfold scanExpire
  dsimp only
  split
  · exact .of_eq ⟨rfl, rfl, rfl, rfl⟩ rfl rfl rfl
  · exact .refl s

theorem scanFitPts_looks : Looks n s (scanFitPts offsetAbs n s) := by
  unfold scanFitPts
  dsimp only
  split
  · refine ⟨.refl _, fun m hm => ?_⟩
    rcases hm with hm | hm | hm
    · exact .inl (.inl hm)
    · exact .inl (.inr (.inl hm))
    · exact .inr (Option.some.inj hm).symm
  · exact .refl s

theorem scanFitOffset_looks : Looks n s (scanFitOffset cur offsetAbs n s) := by
  unfold scanFitOffset
  dsimp only
  split
  · refine ⟨by split <;> exact ⟨rfl, rfl, rfl, rfl⟩, fun m hm => ?_⟩
    rcases hm with hm | hm | hm
    · exact .inl (.inl hm)
    · exact .inr (Option.some.inj hm).symm
    · exact .inl (.inr (.inr hm))
  · exact .refl s

theorem scanFind_looks : Looks n s (scanFind cur n s) := by
  unfold scanFind
  dsimp only
  split
  · refine ⟨.refl _, fun m hm => ?_⟩
    rcases hm with hm | hm | hm
    · exact .inr (Option.some.inj hm).symm
    · exact .inl (.inr (.inl hm))
    · exact .inl (.inr (.inr hm))
  · exact .refl s

theorem scanFit_looks : Looks n s (scanFit cur offsetAbs n s) := by
  unfold scanFit
  split
  · have h := (scanFitOffset_looks cur offsetAbs n s).trans
      (scanFind_looks cur n (scanFitOffset cur offsetAbs n s))
    dsimp only
    split
    · exact h.trans (.of_eq (.refl _) rfl rfl rfl)
    · exact h
  · split
    · exact .of_eq (.refl _) rfl rfl rfl
    · exact .refl s

theorem scanRetry_looks : Looks n s (scanRetry s) := by
  unfold scanRetry
  split
  · exact .of_eq (.refl _) rfl rfl rfl
  · exact .refl s

end

/-- The nodes the search holds and those it will still look at are in the list. -/
structure ScanOk (rest : List NodeId) (s : Scan) : Prop where
  pooled : Pooled s.ins
  held : ∀ n, s.Candidate n → n ∈ s.ins.ptsList
  rest : ∀ n ∈ rest, n ∈ s.ins.ptsList

theorem ScanOk.looks {n : NodeId} {rest : List NodeId} {s s' : Scan}
    (h : ScanOk rest s) (hn : n ∈ s.ins.ptsList) (hs : Looks n s s') : ScanOk rest s' := by
  refine ⟨hs.pool.pooled h.pooled, fun m hm => ?_, fun m hm => ?_⟩
  · rw [hs.pool.list]
    rcases hs.held m hm with hm | rfl
    · exact h.held m hm
    · exact hn
  · rw [hs.pool.list]
    exact h.rest m hm

/-- A node is dropped only when it is no candidate. -/
theorem scanDrop_ok (offsetAbs : UInt32) {n : NodeId} {rest : List NodeId} {s : Scan}
    (h : ScanOk rest s) (hn : n ∈ s.ins.ptsList) (hrest : n ∉ rest) :
    ∃ s', scanDrop offsetAbs n s = some s' ∧ ScanOk rest s' ∧
      s'.ins.mMaxCount = s.ins.mMaxCount := by
  unfold scanDrop
  split
  · rename_i hdrop
    obtain ⟨-, hf, ho, ht⟩ := hdrop
    obtain ⟨hq, hp⟩ := queueEmpty_eq h.pooled hn
    have hne : ∀ m, s.Candidate m → m ≠ n := by
      rintro m (hm | hm | hm) rfl
      · exact hf hm
      · exact ho hm
      · exact ht hm
    rw [hq]
    refine ⟨_, rfl, ⟨hp, fun m hm => ?_, fun m hm => ?_⟩, rfl⟩
    · exact h.pooled.mem_erase.mpr ⟨hne m hm, h.held m hm⟩
    · exact h.pooled.mem_erase.mpr ⟨fun he => hrest (he ▸ hm), h.rest m hm⟩
  · exact ⟨s, rfl, h, rfl⟩

theorem scanNode_ok (cur : UInt32) {n : NodeId} {rest : List NodeId} {s : Scan}
    (h : ScanOk rest s) (hn : n ∈ s.ins.ptsList) (hrest : n ∉ rest) :
    ∃ s', scanNode cur n s = some s' ∧ ScanOk rest s' ∧ s'.ins.mMaxCount = s.ins.mMaxCount := by
  generalize habs : absInt (cur - (s.ins.nodes n).offset) = offsetAbs
  have hl := ((scanExpire_looks cur n s).trans (scanFitPts_looks offsetAbs n _)).trans
    (scanFit_looks cur offsetAbs n _)
  obtain ⟨s₁, h1, hok, hc⟩ :=
    scanDrop_ok offsetAbs (h.looks hn hl) (hl.pool.list ▸ hn) hrest
  unfold scanNode
  dsimp only
  rw [habs, h1]
  have hr : ∀ m, Looks m s₁ (scanRetry s₁) := fun m => scanRetry_looks m s₁
  refine ⟨_, rfl, ?_, (hr n).pool.count.trans (hc.trans hl.pool.count)⟩
  refine ⟨(hr n).pool.pooled hok.pooled, fun m hm => ?_, fun m hm => ?_⟩
  · rw [(hr n).pool.list]
    unfold scanRetry at hm
    split at hm
    · exact hok.held m hm
    · exact hok.held m hm
  · rw [(hr n).pool.list]
    exact hok.rest m hm

/-- The loop is defined and its candidates are in the list. -/
theorem scan_ok (cur : UInt32) (l : List NodeId) :
    ∀ {s : Scan}, ScanOk l s → l.Nodup →
      ∃ s', scan cur l s = some s' ∧ ScanOk [] s' ∧ s'.ins.mMaxCount = s.ins.mMaxCount := by
  induction l with
  | nil => exact fun {s} h _ => ⟨s, rfl, h, rfl⟩
  | cons n l ih =>
    intro s h hl
    obtain ⟨hnl, hl⟩ := List.nodup_cons.mp hl
    have hl' : ScanOk l s := ⟨h.pooled, h.held, fun m hm => h.rest m (List.mem_cons_of_mem _ hm)⟩
    obtain ⟨s₁, h1, hok, hc⟩ := scanNode_ok cur hl' (h.rest n List.mem_cons_self) hnl
    unfold scan
    simp only [h1, bind, Option.bind_some]
    split
    · exact ⟨s₁, rfl, ⟨hok.pooled, hok.held, fun _ hm => (nomatch hm)⟩, hc⟩
    · obtain ⟨s₂, h2, hok2, hc2⟩ :=
        ih (s := { s₁ with i := s₁.i + 1 }) ⟨hok.pooled, hok.held, hok.rest⟩ hl
      exact ⟨s₂, h2, hok2, hc2.trans hc⟩

/-! ## The choice of a node -/

/-- A part of the choice keeps the lists and its node, or takes one with `P`. -/
structure Chooses (P : NodeId → Prop) (c c' : Choice) : Prop where
  pool : SamePool c.ins c'.ins
  found : ∀ n, c'.findPtn = some n → c.findPtn = some n ∨ P n

namespace Chooses

variable {P : NodeId → Prop} {c c' : Choice}

theorem refl (c : Choice) : Chooses P c c := ⟨.refl _, fun _ => .inl⟩

/-- The node is not touched. -/
theorem of_eq (hp : SamePool c.ins c'.ins) (hf : c'.findPtn = c.findPtn) : Chooses P c c' :=
  ⟨hp, fun _ hn => .inl (hf ▸ hn)⟩

theorem of_some {n : NodeId} (hp : SamePool c.ins c'.ins) (hf : c'.findPtn = some n) (hn : P n) :
    Chooses P c c' := by
  refine ⟨hp, fun m hm => .inr ?_⟩
  rw [hf] at hm
  exact Option.some.inj hm ▸ hn

end Chooses

section

variable (s : Scan) (c : Choice)

theorem byOffset_chooses : Chooses s.Candidate c (c.byOffset s) :=
  ⟨⟨rfl, rfl, rfl, rfl⟩, fun _ hn => .inr (.inr (.inl hn))⟩

theorem chooseOffsetMode_chooses : Chooses s.Candidate c (chooseOffsetMode s c) := by
  unfold chooseOffsetMode
  split
  · exact .refl c
  · have h := byOffset_chooses s c
    exact ⟨h.pool, h.found⟩

theorem choosePtsRest_chooses : Chooses s.Candidate c (choosePtsMode.choosePtsRest s c) := by
  unfold choosePtsMode.choosePtsRest
  split
  · exact byOffset_chooses s c
  · exact .of_eq ⟨rfl, rfl, rfl, rfl⟩ rfl

theorem choosePtsMode_chooses : Chooses s.Candidate c (choosePtsMode s c) := by
  unfold choosePtsMode
  split
  · have hrest := choosePtsRest_chooses s { c with find := true }
    have hoff := byOffset_chooses s { c with find := true }
    dsimp only
    split
    · rename_i fitPts hfit
      split
      · split
        · exact ⟨hoff.pool, hoff.found⟩
        · exact .of_some (n := fitPts) ⟨rfl, rfl, rfl, rfl⟩ rfl (.inr (.inr hfit))
      · exact ⟨hrest.pool, hrest.found⟩
    · exact ⟨hrest.pool, hrest.found⟩
  · exact .refl c

theorem choose_chooses : Chooses s.Candidate c (choose s c) := by
  unfold choose
  split
  · exact chooseOffsetMode_chooses s c
  · exact choosePtsMode_chooses s c

end

theorem retryScan_mem (cur : UInt32) (nodes : NodeId → PtsNode) (l : List NodeId) :
    ∀ (i findFrameNum : Int32) (diff : UInt32) (find : Bool) (findPtn : Option NodeId)
      (findIndex : Int32) (n : NodeId),
      (retryScan cur nodes l i findFrameNum diff find findPtn findIndex).2.1 = some n →
        findPtn = some n ∨ n ∈ l := by
  induction l with
  | nil => exact fun _ _ _ _ _ _ _ h => .inl h
  | cons m l ih =>
    intro i findFrameNum diff find findPtn findIndex n h
    unfold retryScan at h
    dsimp only at h
    split at h
    · rcases ih _ _ _ _ _ _ n h with h | h
      · exact .inr (Option.some.inj h ▸ List.mem_cons_self)
      · exact .inr (List.mem_cons_of_mem _ h)
    · split at h
      · exact .inl h
      · exact (ih _ _ _ _ _ _ n h).imp_right (List.mem_cons_of_mem _)

theorem c2Scan_mem (cur last : UInt32) (nodes : NodeId → PtsNode) (l : List NodeId) :
    ∀ (diff : UInt32) (findPtn : Option NodeId) (n : NodeId),
      c2Scan cur last nodes l diff findPtn = some n → findPtn = some n ∨ n ∈ l := by
  induction l with
  | nil => exact fun _ _ _ h => .inl h
  | cons m l ih =>
    intro diff findPtn n h
    unfold c2Scan at h
    dsimp only at h
    split at h
    · rcases ih _ _ n h with h | h
      · exact .inr (Option.some.inj h ▸ List.mem_cons_self)
      · exact .inr (List.mem_cons_of_mem _ h)
    · exact (ih _ _ n h).imp_right (List.mem_cons_of_mem _)

theorem chooseRetry_chooses (c : Choice) : Chooses (· ∈ c.ins.ptsList) c (chooseRetry c) := by
  unfold chooseRetry
  split
  · exact ⟨.refl _, fun n hn => retryScan_mem _ _ _ _ _ _ _ _ _ n hn⟩
  · exact .refl c

theorem chooseC2_chooses (c : Choice) : Chooses (· ∈ c.ins.ptsList) c (chooseC2 c) := by
  unfold chooseC2
  split
  · dsimp only
    generalize hc2 : c2Scan c.cur c.ins.mLastCheckoutCurOffset c.ins.nodes c.ins.ptsList _
      c.findPtn = found
    split
    · rename_i n hn
      refine ⟨.refl _, fun m hm => ?_⟩
      obtain rfl := Option.some.inj hm
      rcases Option.or_eq_some_iff.mp hn with hf | ⟨-, hf⟩
      · exact c2Scan_mem _ _ _ _ _ _ _ (hc2.trans hf)
      · split at hf
        · exact nomatch hf
        · exact .inr (List.mem_of_head? hf)
    · exact .of_eq (.refl _) rfl
  · exact .refl c

/-- The chosen node, if any, is in the list. -/
structure ChoiceOk (c : Choice) : Prop where
  pooled : Pooled c.ins
  found : ∀ n, c.findPtn = some n → n ∈ c.ins.ptsList

theorem ChoiceOk.chooses {P : NodeId → Prop} {c c' : Choice} (h : ChoiceOk c)
    (hP : ∀ n, P n → n ∈ c.ins.ptsList) (hc : Chooses P c c') : ChoiceOk c' := by
  refine ⟨hc.pool.pooled h.pooled, fun n hn => ?_⟩
  rw [hc.pool.list]
  exact (hc.found n hn).elim (h.found n) (hP n)

theorem takeChosen_pooled {c : Choice} (h : ChoiceOk c) :
    ∃ c', takeChosen c = some c' ∧ Pooled c'.ins ∧ c'.ins.mMaxCount = c.ins.mMaxCount := by
  unfold takeChosen
  split
  · rename_i n _ hn
    dsimp only
    split
    · obtain ⟨hq, hp⟩ := queueEmpty_eq h.pooled (h.found n hn)
      rw [hq]
      exact ⟨_, rfl, hp, rfl⟩
    · have hsame : SamePool c.ins
          { c.ins with mLastCheckoutDurationCount := (c.ins.nodes n).durationCount } :=
        ⟨rfl, rfl, rfl, rfl⟩
      obtain ⟨hq, hp⟩ := queueEmpty_eq (hsame.pooled h.pooled) (h.found n hn)
      rw [hq]
      exact ⟨_, rfl, hp, rfl⟩
  · exact ⟨c, rfl, h.pooled, rfl⟩

theorem checkoutSearch_pooled {c : Choice} (h : Pooled c.ins) :
    ∃ c', checkoutSearch c = some c' ∧ Pooled c'.ins ∧ c'.ins.mMaxCount = c.ins.mMaxCount := by
  have hstart : ScanOk c.ins.ptsList (Scan.start c.ins) := by
    refine ⟨h, fun n hn => ?_, fun _ hn => hn⟩
    rcases hn with hn | hn | hn <;> exact nomatch hn
  obtain ⟨s, h1, hs, hc⟩ := scan_ok c.cur c.ins.ptsList hstart h.list_nodup
  unfold checkoutSearch
  simp only [h1, bind, Option.bind_some]
  generalize hc0 : ({ c with
    ins := s.ins, find := s.find, findPtn := s.findPtn, findIndex := s.findIndex } : Choice) = c₀
  have hins : c₀.ins = s.ins := hc0 ▸ rfl
  have h0 : ChoiceOk c₀ := by
    refine ⟨hins ▸ hs.pooled, fun n hn => ?_⟩
    rw [hins]
    exact hs.held n (.inl (by rw [← hn, ← hc0]))
  have hch := choose_chooses s c₀
  have h1' := h0.chooses (fun n hn => hins ▸ hs.held n hn) hch
  have hretry := chooseRetry_chooses (choose s c₀)
  have h2 := h1'.chooses (fun _ hn => hn) hretry
  have hc2 := chooseC2_chooses (chooseRetry (choose s c₀))
  have h3 := h2.chooses (fun _ hn => hn) hc2
  have hcount : (chooseC2 (chooseRetry (choose s c₀))).ins.mMaxCount = c.ins.mMaxCount := by
    rw [hc2.pool.count, hretry.pool.count, hch.pool.count, hins, hc]
    rfl
  obtain ⟨c', h4, hp, hc4⟩ := takeChosen_pooled
    (c := { chooseC2 (chooseRetry (choose s c₀)) with
      ins := { (chooseC2 (chooseRetry (choose s c₀))).ins with
        mLastCheckoutIndex := (chooseC2 (chooseRetry (choose s c₀))).findIndex.toUInt32 } })
    ⟨⟨h3.pooled.split, h3.pooled.size⟩, h3.found⟩
  exact ⟨c', h4, hp, hc4.trans hcount⟩

/-! ## The calls -/

section

variable {ins : PtsServerIns}

theorem extrapolate_samePool (ins : PtsServerIns) : SamePool ins (extrapolate ins) := by
  unfold extrapolate
  split
  · exact ⟨rfl, rfl, rfl, rfl⟩
  · split <;> exact ⟨rfl, rfl, rfl, rfl⟩

theorem checkoutFail_samePool (c : Choice) : SamePool c.ins (checkoutFail c).1 := by
  have hrecord : SamePool c.ins (failRecord c) := ⟨rfl, rfl, rfl, rfl⟩
  have h := hrecord.trans (extrapolate_samePool (failRecord c))
  exact ⟨h.list, h.free, h.count, h.size⟩

theorem frameDuration_samePool (out : CheckoutPtsOffset) (ins : PtsServerIns) :
    SamePool ins (frameDuration out ins) := by
  unfold frameDuration
  split
  · split
    · exact ⟨rfl, rfl, rfl, rfl⟩
    · have hcount : SamePool ins (frameDurationCount out ins) := by
        unfold frameDurationCount
        dsimp only
        split <;> exact ⟨rfl, rfl, rfl, rfl⟩
      apply hcount.trans
      unfold frameDurationAdopt
      split <;> exact ⟨rfl, rfl, rfl, rfl⟩
  · exact ⟨rfl, rfl, rfl, rfl⟩

theorem checkoutDone_samePool (duration : UInt32) (c : Choice) :
    SamePool c.ins (checkoutDone duration c).1 :=
  (frameDuration_samePool c.out c.ins).trans ⟨rfl, rfl, rfl, rfl⟩

/-- A video check-out is defined. -/
theorem ptsserverCheckoutPtsOffset_pooled (req : CheckoutPtsOffset) (h : Pooled ins) :
    ∃ ins' out, ptsserverCheckoutPtsOffset req ins = some (ins', out) ∧ Pooled ins' ∧
      ins'.mMaxCount = ins.mMaxCount := by
  have hfinish : ∀ c : Choice, Pooled c.ins → c.ins.mMaxCount = ins.mMaxCount →
      ∀ duration, ∃ ins' out, (if c.find = false ∨ c.invalidMode = true then checkoutFail c
        else checkoutDone duration c) = (ins', out) ∧ Pooled ins' ∧
          ins'.mMaxCount = ins.mMaxCount := by
    intro c hp hc duration
    split
    · have hs := checkoutFail_samePool c
      exact ⟨_, _, rfl, hs.pooled hp, hs.count.trans hc⟩
    · have hs := checkoutDone_samePool duration c
      exact ⟨_, _, rfl, hs.pooled hp, hs.count.trans hc⟩
  unfold ptsserverCheckoutPtsOffset
  dsimp only
  split
  · obtain ⟨c, h1, hp, hc⟩ := checkoutSearch_pooled
      (c := ⟨ins, false, none, -1, false, maxCheckoutBoundValue, req.offset.toUInt32, req⟩) h
    obtain ⟨ins', out, h2, hp', hc'⟩ := hfinish c hp hc _
    refine ⟨ins', out, ?_, hp', hc'⟩
    rw [h1, Option.map_some, h2]
  · obtain ⟨ins', out, h2, hp', hc'⟩ := hfinish
      ⟨ins, false, none, -1, false, maxCheckoutBoundValue, req.offset.toUInt32, req⟩ h rfl _
    refine ⟨ins', out, ?_, hp', hc'⟩
    rw [Option.map_some, h2]

theorem peekScan_samePool (cur : UInt32) (l : List NodeId) :
    ∀ s : PeekScan, SamePool s.ins (peekScan cur l s).ins := by
  have hnode : ∀ n s, SamePool s.ins (peekNode cur n s).ins := by
    intro n s
    unfold peekNode
    dsimp only
    split <;> split
    all_goals first
      | exact .refl _
      | (dsimp only; split <;> exact ⟨rfl, rfl, rfl, rfl⟩)
  induction l with
  | nil => exact fun s => .refl _
  | cons n l ih =>
    intro s
    unfold peekScan
    dsimp only
    split
    · exact hnode n s
    · exact (hnode n s).trans (ih _)

theorem ptsserverPeekPtsOffset_samePool (req : CheckoutPtsOffset) (ins : PtsServerIns) :
    SamePool ins (ptsserverPeekPtsOffset req ins).1 := by
  unfold ptsserverPeekPtsOffset
  dsimp only
  split
  · exact (peekScan_samePool _ _ ⟨ins, false, none, ins.mLookupThreshold, 0⟩).trans
      ⟨rfl, rfl, rfl, rfl⟩
  · exact ⟨rfl, rfl, rfl, rfl⟩

/-- The candidate of an audio search and the nodes it will still look at are in the list. -/
structure AptsOk (rest : List NodeId) (s : AptsScan) : Prop where
  pooled : Pooled s.ins
  found : ∀ n, s.findPtn = some n → n ∈ s.ins.ptsList ∧ n ∉ rest
  rest : ∀ n ∈ rest, n ∈ s.ins.ptsList

/-- The loop drops only nodes that it has not seen before. -/
theorem aptsScan_ok (cur threshold : UInt32) (l : List NodeId) :
    ∀ {s : AptsScan}, AptsOk l s → l.Nodup →
      ∃ s', aptsScan cur threshold l s = some s' ∧ AptsOk [] s' ∧
        s'.ins.mMaxCount = s.ins.mMaxCount := by
  induction l with
  | nil => exact fun {s} h _ => ⟨s, rfl, h, rfl⟩
  | cons n l ih =>
    intro s h hl
    obtain ⟨hnl, hl⟩ := List.nodup_cons.mp hl
    have hn := h.rest n List.mem_cons_self
    have hrest : ∀ m ∈ l, m ∈ s.ins.ptsList := fun m hm => h.rest m (List.mem_cons_of_mem _ hm)
    have hold : ∀ m, s.findPtn = some m → m ∈ s.ins.ptsList ∧ m ∉ l := fun m hm =>
      ⟨(h.found m hm).1, fun hml => (h.found m hm).2 (List.mem_cons_of_mem _ hml)⟩
    have hkeep : ∀ k, AptsOk l { s with findFrameNum := k } := fun k => ⟨h.pooled, hold, hrest⟩
    unfold aptsScan
    dsimp only
    split
    · split
      · refine ih ⟨h.pooled, fun m hm => ?_, hrest⟩ hl
        obtain rfl := Option.some.inj hm
        exact ⟨hn, hnl⟩
      · exact ih (hkeep _) hl
    · split
      · obtain ⟨hq, hp⟩ := queueEmpty_eq h.pooled hn
        simp only [hq, bind, Option.bind_some]
        refine ih (s := { s with ins := queued n s.ins, findFrameNum := _ })
          ⟨hp, fun m hm => ⟨?_, (hold m hm).2⟩, fun m hm => ?_⟩ hl
        · refine h.pooled.mem_erase.mpr ⟨?_, (hold m hm).1⟩
          rintro rfl
          exact (h.found m hm).2 List.mem_cons_self
        · exact h.pooled.mem_erase.mpr ⟨fun he => hnl (he ▸ hm), hrest m hm⟩
      · split
        · exact ⟨s, rfl, ⟨h.pooled, fun m hm => ⟨(hold m hm).1, by simp⟩,
            fun _ hm => (nomatch hm)⟩, rfl⟩
        · exact ih (hkeep _) hl

theorem aptsSearch_pooled (cur : UInt32) (out : CheckoutAptsOffset) (h : Pooled ins) :
    ∃ ins' out' find, aptsSearch cur out ins = some (ins', out', find) ∧ Pooled ins' ∧
      ins'.mMaxCount = ins.mMaxCount := by
  unfold aptsSearch
  dsimp only
  generalize (if ins.mAudioOffsetMargin = 0 then ins.mLookupThreshold
    else ins.mAudioOffsetMargin) = threshold
  obtain ⟨s, h1, hs, hc⟩ := aptsScan_ok cur threshold ins.ptsList
    (s := ⟨ins, none, threshold, 0⟩) ⟨h, fun _ hn => (nomatch hn), fun _ hn => hn⟩ h.list_nodup
  simp only [h1, bind, Option.bind_some]
  cases hf : s.findPtn with
  | none => exact ⟨_, _, _, rfl, hs.pooled, hc⟩
  | some n =>
    obtain ⟨hq, hp⟩ := queueEmpty_eq hs.pooled (hs.found n hf).1
    simp only [hq, Option.bind_some]
    exact ⟨_, _, _, rfl, hp, hc⟩

theorem aptsResult_samePool (cur : UInt32) (ins : PtsServerIns) (out : CheckoutAptsOffset)
    (find : Bool) : SamePool ins (aptsResult cur ins out find).1 := by
  unfold aptsResult
  split
  · exact ⟨rfl, rfl, rfl, rfl⟩
  · split <;> exact ⟨rfl, rfl, rfl, rfl⟩

theorem ptsserverCheckoutAptsOffset_pooled (req : CheckoutAptsOffset) (h : Pooled ins) :
    ∃ ins' out, ptsserverCheckoutAptsOffset req ins = some (ins', out) ∧ Pooled ins' ∧
      ins'.mMaxCount = ins.mMaxCount := by
  unfold ptsserverCheckoutAptsOffset
  dsimp only
  split
  · obtain ⟨ins₁, out, find, h1, hp, hc⟩ := aptsSearch_pooled req.offset.toUInt32 req h
    have hs := aptsResult_samePool req.offset.toUInt32 ins₁ out find
    rw [h1]
    exact ⟨_, _, rfl, hs.pooled hp, hs.count.trans hc⟩
  · have hs := aptsResult_samePool req.offset.toUInt32 ins req false
    exact ⟨_, _, rfl, hs.pooled h, hs.count⟩

theorem resetList_pooled (l : List NodeId) :
    ∀ {ins : PtsServerIns}, Pooled ins → l = ins.ptsList →
      ∃ ins', resetList l ins = some ins' ∧ Pooled ins' ∧ ins'.ptsList = [] ∧
        ins'.mMaxCount = ins.mMaxCount := by
  induction l with
  | nil => exact fun {ins} h hl => ⟨ins, rfl, h, hl.symm, rfl⟩
  | cons n l ih =>
    intro ins h hl
    have hn : n ∈ ins.ptsList := hl ▸ List.mem_cons_self
    obtain ⟨hq, hp⟩ := queueEmpty_eq h hn
    obtain ⟨ins', h1, hp', hnil, hc⟩ := ih hp (by
      show l = ins.ptsList.erase n
      rw [← hl, List.erase_cons_head])
    refine ⟨ins', ?_, hp', hnil, hc⟩
    unfold resetList
    simp only [hq, bind, Option.bind_some]
    exact h1

/-- A reset is defined and takes every node to the free list. -/
theorem ptsserverInsReset_pooled (h : Pooled ins) :
    ∃ ins', ptsserverInsReset ins = some ins' ∧ Pooled ins' ∧
      ins'.mMaxCount = ins.mMaxCount := by
  obtain ⟨ins₁, h1, hp, hnil, hc⟩ := resetList_pooled ins.ptsList h rfl
  unfold ptsserverInsReset
  simp only [h1, bind, Option.bind_some]
  refine ⟨_, rfl, ⟨hp.split, ?_⟩, hc⟩
  show (0 : UInt32).toNat = ins₁.ptsList.length
  rw [hnil]
  rfl

end

/-! ## Runs -/

/-- The calls on an instance. -/
inductive Op
  | checkinPtsSize (req : CheckinPtsSize) (isOffset : Bool)
  | checkinAptsSize (req : CheckinAptsSize)
  | checkoutPtsOffset (req : CheckoutPtsOffset)
  | checkoutAptsOffset (req : CheckoutAptsOffset)
  | peekPtsOffset (req : CheckoutPtsOffset)
  | setMode (setMode : Bool)
  | setTrickMode (mode : Int32)
  | setFirstCheckinOffset (mStartOffset : StartOffset)
  | setAudioOffsetMargin (offsetMargin : UInt32)
  | insReset

def step (ins : PtsServerIns) : Op → Option PtsServerIns
  | .checkinPtsSize req isOffset => (ptsserverCheckinPtsSize req isOffset ins).map Prod.fst
  | .checkinAptsSize req => (ptsserverCheckinAptsSize req ins).map Prod.fst
  | .checkoutPtsOffset req => (ptsserverCheckoutPtsOffset req ins).map Prod.fst
  | .checkoutAptsOffset req => (ptsserverCheckoutAptsOffset req ins).map Prod.fst
  | .peekPtsOffset req => some (ptsserverPeekPtsOffset req ins).1
  | .setMode setMode => some (ptsserverSetMode setMode ins)
  | .setTrickMode mode => some (ptsserverSetTrickMode mode ins)
  | .setFirstCheckinOffset mStartOffset => some (ptsserverSetFirstCheckinOffset mStartOffset ins)
  | .setAudioOffsetMargin offsetMargin => some (ptsserverSetAudioOffsetMargin offsetMargin ins)
  | .insReset => ptsserverInsReset ins

/-- Every call is defined and keeps the nodes split between the lists. -/
theorem step_pooled (count : UInt32) (hpos : 0 < count) (ins : PtsServerIns) (op : Op)
    (h : Pooled ins ∧ ins.mMaxCount = count) :
    ∃ ins', step ins op = some ins' ∧ Pooled ins' ∧ ins'.mMaxCount = count := by
  obtain ⟨h, hc⟩ := h
  have hpos' : 0 < ins.mMaxCount.toNat := hc ▸ UInt32.lt_iff_toNat_lt.mp hpos
  have hmap : ∀ {β : Type} {o : Option (PtsServerIns × β)},
      (∃ ins' out, o = some (ins', out) ∧ Pooled ins' ∧ ins'.mMaxCount = ins.mMaxCount) →
        ∃ ins', o.map Prod.fst = some ins' ∧ Pooled ins' ∧ ins'.mMaxCount = count := by
    rintro β o ⟨ins', out, rfl, hp, hc'⟩
    exact ⟨ins', rfl, hp, hc'.trans hc⟩
  have hsame : ∀ {ins'}, SamePool ins ins' → ∃ ins'', some ins' = some ins'' ∧ Pooled ins'' ∧
      ins''.mMaxCount = count :=
    fun {ins'} hs => ⟨ins', rfl, hs.pooled h, hs.count.trans hc⟩
  cases op with
  | checkinPtsSize req isOffset =>
    obtain ⟨ins', h1, hp, hc'⟩ := ptsserverCheckinPtsSize_pooled req isOffset h hpos'
    exact hmap ⟨ins', 0, h1, hp, hc'⟩
  | checkinAptsSize req =>
    obtain ⟨ins', h1, hp, hc'⟩ := ptsserverCheckinAptsSize_pooled req h hpos'
    exact hmap ⟨ins', 0, h1, hp, hc'⟩
  | checkoutPtsOffset req => exact hmap (ptsserverCheckoutPtsOffset_pooled req h)
  | checkoutAptsOffset req => exact hmap (ptsserverCheckoutAptsOffset_pooled req h)
  | peekPtsOffset req => exact hsame (ptsserverPeekPtsOffset_samePool req ins)
  | setMode | setTrickMode | setFirstCheckinOffset | setAudioOffsetMargin =>
    exact hsame ⟨rfl, rfl, rfl, rfl⟩
  | insReset =>
    obtain ⟨ins', h1, hp, hc'⟩ := ptsserverInsReset_pooled h
    exact ⟨ins', h1, hp, hc'.trans hc⟩

theorem init_pooled (allocParm : AllocPara) (nodes : NodeId → PtsNode) (ins : PtsServerIns) :
    Pooled (ptsserverInsInitSyncinfo allocParm (some nodes) ins).1 :=
  ⟨.refl _, rfl⟩

/-- Whatever is done to an instance with nodes, every node is in exactly one of the lists,
`mListSize` is the length of `pts_list`, and the next check-in finds a node. -/
theorem nodes_partitioned (allocParm : AllocPara) (hpos : 0 < allocParm.mMaxCount)
    (nodes : NodeId → PtsNode) (ins : PtsServerIns) (ops : List Op) :
    ∃ ins', run step (ptsserverInsInitSyncinfo allocParm (some nodes) ins).1 ops = some ins' ∧
      (ins'.ptsList ++ ins'.ptsFreeList).Perm (List.range allocParm.mMaxCount.toNat) ∧
      ins'.mListSize.toNat = ins'.ptsList.length ∧
      (∀ req isOffset, ∃ ins'', ptsserverCheckinPtsSize req isOffset ins' = some (ins'', 0)) ∧
      ∀ req, ∃ ins'', ptsserverCheckinAptsSize req ins' = some (ins'', 0) := by
  obtain ⟨ins', hrun, h, hc⟩ := run_total (step_pooled allocParm.mMaxCount hpos)
    ⟨init_pooled allocParm nodes ins, rfl⟩ ops
  have hpos' : 0 < ins'.mMaxCount.toNat := hc ▸ UInt32.lt_iff_toNat_lt.mp hpos
  refine ⟨ins', hrun, hc ▸ h.split, h.size, fun req isOffset => ?_, fun req => ?_⟩
  · obtain ⟨ins'', h1, -⟩ := ptsserverCheckinPtsSize_pooled req isOffset h hpos'
    exact ⟨ins'', h1⟩
  · obtain ⟨ins'', h1, -⟩ := ptsserverCheckinAptsSize_pooled req h hpos'
    exact ⟨ins'', h1⟩

/-- One node, two check-ins and a check-out. -/
theorem nodes_partitioned_one :
    ∃ ins', run step (ptsserverInsInitSyncinfo ⟨1, 2500, 5⟩ (some fun _ => ⟨0, 0, 0, 0, 0, 0⟩)
        (.zero fun _ => ⟨0, 0, 0, 0, 0, 0⟩)).1
        [.checkinPtsSize ⟨100, 90, 1000⟩ true, .checkinPtsSize ⟨200, 180, 2000⟩ true,
          .checkoutPtsOffset ⟨210, 0, 0⟩] = some ins' ∧
      (ins'.ptsList ++ ins'.ptsFreeList).Perm (List.range 1) ∧
      ins'.mListSize.toNat = ins'.ptsList.length := by
  obtain ⟨ins', hrun, hsplit, hsize, -⟩ := nodes_partitioned ⟨1, 2500, 5⟩ (by decide)
    (fun _ => ⟨0, 0, 0, 0, 0, 0⟩) (.zero fun _ => ⟨0, 0, 0, 0, 0, 0⟩)
    [.checkinPtsSize ⟨100, 90, 1000⟩ true, .checkinPtsSize ⟨200, 180, 2000⟩ true,
      .checkoutPtsOffset ⟨210, 0, 0⟩]
  exact ⟨ins', hrun, hsplit, hsize⟩

end MediaModules.PtsServer
