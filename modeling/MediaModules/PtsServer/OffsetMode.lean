import Mathlib.Algebra.Order.Ring.Nat
import Mathlib.Tactic.Common
import MediaModules.PtsServer.OffsetScan

/-!
# Check-out in offset mode

On a list that is sorted by offset a check-out in offset mode takes what a full scan would: the
last of the nodes nearest below the request and in reach.
-/
namespace MediaModules.PtsServer

open MediaModules.Lib.Run

/-- Check-outs have started, in offset mode without C2 or trick mode. -/
structure InOffsetMode (ins : PtsServerIns) : Prop where
  mode : ins.mOffsetMode = true
  c2 : ins.setC2Mode = false
  trick : ins.mTrickMode = 0
  started : ins.mPtsCheckoutStarted ≠ 0

/-- What a full scan would take: the last in the list of the nodes with the greatest offset among
those below the request and in reach. -/
def Nearest (cur : UInt32) (ins : PtsServerIns) (n : NodeId) : Prop :=
  InWindow cur ins n ∧ ∃ pre post, ins.ptsList = pre ++ n :: post ∧
    (∀ m ∈ pre, InWindow cur ins m → (ins.nodes m).offset ≤ (ins.nodes n).offset) ∧
    ∀ m ∈ post, InWindow cur ins m → (ins.nodes m).offset < (ins.nodes n).offset

/-- The timestamps of an extrapolation. -/
def extrapolated (ins : PtsServerIns) : UInt32 × UInt64 :=
  ((extrapolate ins).mLastCheckoutPts, (extrapolate ins).mLastCheckoutPts64)

section

variable {ins : PtsServerIns} {cur : UInt32} {n : NodeId} {c : Choice} {s : Scan}
  {req : CheckoutPtsOffset}

/-- On a sorted list the nearest node is the last one in reach. -/
theorem nearest_iff (hs : Sorted cur ins) : Nearest cur ins n ↔
    (ins.ptsList.filter fun m => InWindow cur ins m).getLast? = some n := by
  constructor
  · rintro ⟨hn, pre, post, hl, -, hpost⟩
    have hsorted := hs.sorted
    rw [hl] at hsorted
    have hafter := (List.pairwise_cons.mp (List.pairwise_append.mp hsorted).2.1).1
    have hnil : post.filter (fun m => InWindow cur ins m) = [] := by
      apply List.filter_eq_nil_iff.mpr
      intro m hm hw
      exact UInt32.not_lt.mpr (hafter m hm) (hpost m hm (of_decide_eq_true hw))
    have hcons : (n :: post).filter (fun m => InWindow cur ins m) = [n] := by
      rw [List.filter_cons, if_pos (decide_eq_true hn), hnil]
    rw [hl, List.filter_append, hcons, List.getLast?_concat]
  · intro hlast
    have hmem := List.mem_of_getLast? hlast
    have hn : InWindow cur ins n := of_decide_eq_true (List.mem_filter.mp hmem).2
    obtain ⟨ys, hys⟩ := List.getLast?_eq_some_iff.mp hlast
    obtain ⟨pre, post, hl, hpre, hpost⟩ := List.filter_eq_append_iff.mp hys
    obtain ⟨mid, rest, hpost', hmid, hnw, hrest⟩ := List.filter_eq_cons_iff.mp hpost
    have hsplit : ins.ptsList = (pre ++ mid) ++ n :: rest := by
      rw [hl, hpost', List.append_assoc]
    have hsorted := hs.sorted
    rw [hsplit] at hsorted
    refine ⟨hn, pre ++ mid, rest, hsplit, fun m hm _ => ?_, fun m hm hw => ?_⟩
    · exact (List.pairwise_append.mp hsorted).2.2 m hm n List.mem_cons_self
    · exact absurd (decide_eq_true hw) (List.filter_eq_nil_iff.mp hrest m hm)

/-- A search that leaves the clock alone does not change what a failed check-out reports. -/
theorem checkoutFail_result (h : Sweeps ins c.ins) :
    ((checkoutFail c).2.pts, (checkoutFail c).2.pts64) = extrapolated ins := by
  have hread := h.read (fun i => (i.mLastCheckoutPts, i.mLastCheckoutPts64, i.mDecoderDuration,
    i.mPtsCheckoutStarted, i.mFrameDuration, i.mFrameDuration64)) fun _ => rfl
  simp only [Prod.mk.injEq] at hread
  obtain ⟨h1, h2, h3, h4, h5, h6⟩ := hread
  apply (extrapolate_result (failRecord c)).trans
  unfold failRecord
  dsimp only
  rw [h1, h2, h3, h4, h5, h6]
  exact (extrapolate_result ins).symm

theorem takeChosen_none (h : c.find = false) : takeChosen c = some c := by
  unfold takeChosen
  split
  · rename_i hfind _
    exact absurd (h.symm.trans hfind) Bool.false_ne_true
  · rfl

/-- A chosen node leaves the list, and is reported unless it is invalid. -/
theorem takeChosen_some (h : Pooled c.ins) (hfind : c.find = true) (hn : c.findPtn = some n)
    (hmem : n ∈ c.ins.ptsList) :
    ∃ c', takeChosen c = some c' ∧ c'.find = true ∧ c'.invalidMode = c.invalidMode ∧
      c'.ins.ptsList = c.ins.ptsList.erase n ∧ (c.invalidMode = false →
        (c'.out.pts, c'.out.pts64) = ((c.ins.nodes n).pts90k.toUInt32, (c.ins.nodes n).pts64)) := by
  unfold takeChosen
  rw [hfind, hn]
  dsimp only
  cases hinv : c.invalidMode with
  | true =>
    rw [if_pos rfl, (queueEmpty_eq h hmem).1]
    exact ⟨_, rfl, hfind, hinv, rfl, fun hc => nomatch hc⟩
  | false =>
    have hp : Pooled { c.ins with mLastCheckoutDurationCount := (c.ins.nodes n).durationCount } :=
      ⟨h.split, h.size⟩
    rw [if_neg Bool.false_ne_true]
    dsimp only
    rw [(queueEmpty_eq hp hmem).1]
    exact ⟨_, rfl, rfl, rfl, rfl, fun _ => rfl⟩

theorem chooseRetry_off (h : c.find = true ∨ (c.ins.mTrickMode = 0 ∧
    c.ins.mPtsCheckoutStarted ≠ 0)) : chooseRetry c = c := by
  unfold chooseRetry
  apply if_neg
  intro hc
  rcases h with h | ⟨htrick, hstarted⟩
  · exact absurd (hc.1.symm.trans h) Bool.false_ne_true
  · rcases hc.2 with h1 | h1
    · exact absurd (htrick.symm.trans h1) (by decide)
    · exact hstarted h1

theorem chooseC2_off (h : c.ins.setC2Mode = false) : chooseC2 c = c := by
  unfold chooseC2
  exact if_neg fun hc => absurd (h.symm.trans hc.2) Bool.false_ne_true

/-- What a check-out in offset mode does. -/
structure Selects (req : CheckoutPtsOffset) (ins ins' : PtsServerIns) (out : CheckoutPtsOffset) :
    Prop where
  taken : ∀ n, Nearest req.offset.toUInt32 ins n → n ∉ ins'.ptsList ∧
    (out.pts, out.pts64) = if (ins.nodes n).invalid then extrapolated ins
      else ((ins.nodes n).pts90k.toUInt32, (ins.nodes n).pts64)
  none : (∀ n, ¬ Nearest req.offset.toUInt32 ins n) → (out.pts, out.pts64) = extrapolated ins
  kept : ∀ m ∈ ins.ptsList, m ∉ ins'.ptsList →
    Nearest req.offset.toUInt32 ins m ∨ Droppable req.offset.toUInt32 ins m

/-- The end of a check-out: the list is that of the choice. -/
theorem finish_list (duration : UInt32) (c : Choice) :
    (if c.find = false ∨ c.invalidMode = true then checkoutFail c
      else checkoutDone duration c).1.ptsList = c.ins.ptsList := by
  split
  · exact (checkoutFail_samePool c).list
  · exact (checkoutDone_samePool duration c).list

/-- The choice of a node, with the index it records. -/
def chosen (s : Scan) (c : Choice) : Choice :=
  let c := chooseC2 (chooseRetry (choose s { c with
    ins := s.ins, find := s.find, findPtn := s.findPtn, findIndex := s.findIndex }))
  { c with ins := { c.ins with mLastCheckoutIndex := c.findIndex.toUInt32 } }

theorem checkoutSearch_eq (c : Choice) : checkoutSearch c =
    (scan c.cur c.ins.ptsList (.start c.ins)).bind fun s => takeChosen (chosen s c) := rfl

/-- The modes are as before the search. -/
theorem modes_of_sweep (hm : InOffsetMode ins) (h : Sweeps ins s.ins) :
    s.ins.mTrickMode = 0 ∧ s.ins.mPtsCheckoutStarted ≠ 0 ∧ s.ins.setC2Mode = false := by
  have hread := h.read (fun i => (i.mTrickMode, i.mPtsCheckoutStarted, i.setC2Mode)) fun _ => rfl
  simp only [Prod.mk.injEq] at hread
  obtain ⟨htrick, hstarted, hc2⟩ := hread
  exact ⟨htrick.trans hm.trick, hstarted ▸ hm.started, hc2.trans hm.c2⟩

/-- Without a node in reach nothing is chosen. -/
theorem chosen_none (hm : InOffsetMode ins) (hs : OffsetScan cur ins ins.ptsList s)
    (hfit : s.fitOffsetPtn = none) : (chosen s c).find = false ∧
      (chosen s c).ins = { s.ins with mLastCheckoutIndex := s.findIndex.toUInt32 } := by
  obtain ⟨htrick, hstarted, hc2⟩ := modes_of_sweep hm hs.sweep
  have hfind : s.find = false := (hs.view.unfit hfit).1
  have hchoose : choose s { c with
      ins := s.ins, find := s.find, findPtn := s.findPtn, findIndex := s.findIndex } =
      { c with ins := s.ins, find := s.find, findPtn := s.findPtn, findIndex := s.findIndex } := by
    unfold choose chooseOffsetMode
    rw [if_pos (show s.ins.mOffsetMode = true from hs.mode), hfit]
  unfold chosen
  rw [hchoose, chooseRetry_off (.inr ⟨htrick, hstarted⟩), chooseC2_off hc2]
  exact ⟨hfind, rfl⟩

theorem chosen_some (hm : InOffsetMode ins) (hs : OffsetScan cur ins ins.ptsList s)
    (hfit : s.fitOffsetPtn = some n) : (chosen s c).find = true ∧ (chosen s c).findPtn = some n ∧
      (chosen s c).invalidMode = (s.ins.nodes n).invalid ∧
      (chosen s c).ins = { s.ins with
        mStickyWrapFlag := 0, mLastCheckoutIndex := s.fitOffsetNumber.toUInt32 } := by
  obtain ⟨htrick, hstarted, hc2⟩ := modes_of_sweep hm hs.sweep
  have hchoose : choose s { c with
      ins := s.ins, find := s.find, findPtn := s.findPtn, findIndex := s.findIndex } =
      { c with
        ins := { s.ins with mStickyWrapFlag := 0 }
        find := true
        findPtn := some n
        findIndex := s.fitOffsetNumber
        invalidMode := (s.ins.nodes n).invalid
        shotBound := c.shotBound - 1 } := by
    unfold choose chooseOffsetMode
    rw [if_pos (show s.ins.mOffsetMode = true from hs.mode), hfit]
    unfold Choice.byOffset
    rw [hfit]
  unfold chosen
  rw [hchoose, chooseRetry_off (.inl rfl), chooseC2_off hc2]
  exact ⟨rfl, rfl, rfl, rfl⟩

theorem search_selects (hp : Pooled ins) (hm : InOffsetMode ins)
    (hs : Sorted req.offset.toUInt32 ins) (invalidMode : Bool) (shotBound : Int32) :
    ∃ c, checkoutSearch ⟨ins, false, none, -1, invalidMode, shotBound, req.offset.toUInt32, req⟩ =
        some c ∧ Sweeps ins c.ins ∧
      ((∃ n, Nearest req.offset.toUInt32 ins n ∧ c.find = true ∧ n ∉ c.ins.ptsList ∧
          c.invalidMode = (ins.nodes n).invalid ∧ (c.invalidMode = false →
            (c.out.pts, c.out.pts64) = ((ins.nodes n).pts90k.toUInt32, (ins.nodes n).pts64)) ∧
          ∀ m ∈ ins.ptsList, m ∉ c.ins.ptsList → m = n ∨ Droppable req.offset.toUInt32 ins m) ∨
        ((∀ n, ¬ Nearest req.offset.toUInt32 ins n) ∧ c.find = false ∧
          ∀ m ∈ ins.ptsList, m ∉ c.ins.ptsList → Droppable req.offset.toUInt32 ins m)) := by
  obtain ⟨c₀, hc₀⟩ : ∃ c₀ : Choice,
      ⟨ins, false, none, -1, invalidMode, shotBound, req.offset.toUInt32, req⟩ = c₀ := ⟨_, rfl⟩
  have hins : c₀.ins = ins := hc₀ ▸ rfl
  have hcur : c₀.cur = req.offset.toUInt32 := hc₀ ▸ rfl
  have hstart : ScanOk ins.ptsList (Scan.start ins) := by
    refine ⟨hp, fun n hn => ?_, fun _ hn => hn⟩
    rcases hn with hn | hn | hn <;> exact nomatch hn
  obtain ⟨s, hscan, hok, -⟩ := scan_ok req.offset.toUInt32 ins.ptsList hstart hp.list_nodup
  have hoff := scan_offset hs ins.ptsList (start_offsetScan hm.mode) rfl hp.list_nodup hscan
  have hsearch : checkoutSearch c₀ = takeChosen (chosen s c₀) := by
    rw [checkoutSearch_eq, hins, hcur, hscan, Option.bind_some]
  rw [hc₀, hsearch]
  cases hfit : s.fitOffsetPtn with
  | none =>
    obtain ⟨hfind, hcins⟩ := chosen_none (c := c₀) hm hoff hfit
    have hlast := hoff.view.fit.symm.trans hfit
    refine ⟨_, takeChosen_none hfind, ?_, .inr ⟨fun n hn => ?_, hfind, fun m hm hout => ?_⟩⟩
    · rw [hcins]
      exact hoff.sweep.trans ⟨.refl _, rfl⟩
    · exact nomatch hlast.symm.trans ((nearest_iff hs).mp hn)
    · rw [hcins] at hout
      exact hoff.dropped m hm hout
  | some n =>
    obtain ⟨hfind, hptn, hinv, hcins⟩ := chosen_some (c := c₀) hm hoff hfit
    have hmem : n ∈ s.ins.ptsList := hok.held n (.inr (.inl hfit))
    have hnear : Nearest req.offset.toUInt32 ins n :=
      (nearest_iff hs).mpr (hoff.view.fit.symm.trans hfit)
    have hnode := hoff.sweep.node n
    have hpts90k : (s.ins.nodes n).pts90k = (ins.nodes n).pts90k :=
      (congrArg PtsNode.pts90k hnode :)
    have hinvalid : (s.ins.nodes n).invalid = (ins.nodes n).invalid := by
      unfold PtsNode.invalid
      rw [hpts90k]
    have hpool : Pooled (chosen s c₀).ins := by
      rw [hcins]
      exact ⟨hok.pooled.split, hok.pooled.size⟩
    obtain ⟨c', htake, hfind', hinv', hlist, hout⟩ :=
      takeChosen_some hpool hfind hptn (by rw [hcins]; exact hmem)
    have hchosen : Sweeps s.ins (chosen s c₀).ins := by
      rw [hcins]
      exact ⟨.refl _, rfl⟩
    rw [hcins] at hlist hout
    refine ⟨c', htake, (hoff.sweep.trans hchosen).trans (takeChosen_sweeps htake),
      .inl ⟨n, hnear, hfind', ?_, hinv'.trans (hinv.trans hinvalid), fun hvalid => ?_,
        fun m hm hgone => ?_⟩⟩
    · rw [hlist]
      exact fun hc => (hok.pooled.mem_erase.mp hc).1 rfl
    · apply (hout (hinv' ▸ hvalid)).trans
      show ((s.ins.nodes n).pts90k.toUInt32, (s.ins.nodes n).pts64) = _
      rw [hpts90k, hoff.sweep.pts64 n]
    · by_cases hmn : m = n
      · exact .inl hmn
      · refine .inr (hoff.dropped m hm fun hms => hgone ?_)
        rw [hlist]
        exact hok.pooled.mem_erase.mpr ⟨hmn, hms⟩

/-- In offset mode, on a list sorted by offset, a check-out selects what a full scan would. The
nodes of every instance that can be reached are split between its lists (`run_pooled`). -/
theorem checkout_selects_nearest (hp : Pooled ins) (hm : InOffsetMode ins)
    (hs : Sorted req.offset.toUInt32 ins) (hcur : req.offset.toUInt32 ≠ 0xffffffff) :
    ∃ ins' out, ptsserverCheckoutPtsOffset req ins = some (ins', out) ∧
      Selects req ins ins' out := by
  by_cases hnil : ins.ptsList = []
  · have hno : ∀ n, ¬ Nearest req.offset.toUInt32 ins n := by
      rintro n ⟨-, pre, post, hl, -⟩
      rw [hnil] at hl
      exact absurd hl.symm (List.append_ne_nil_of_right_ne_nil _ (List.cons_ne_nil n post))
    obtain ⟨ins', out, hcall, hout⟩ := checkout_none ins req (.inl hnil)
    refine ⟨ins', out, hcall, fun n hn => absurd hn (hno n), fun _ => hout, fun m hm _ => ?_⟩
    rw [hnil] at hm
    exact nomatch hm
  obtain ⟨c, hsearch, hsweep, hcases⟩ := search_selects hp hm hs false
    maxCheckoutBoundValue
  have hcall : ptsserverCheckoutPtsOffset req ins =
      some (if c.find = false ∨ c.invalidMode = true then checkoutFail c
        else checkoutDone ((req.offset >>> 32).toUInt32 &&& 0x3fffffff) c) := by
    unfold ptsserverCheckoutPtsOffset
    dsimp only
    rw [if_pos ⟨hcur, hnil⟩, hsearch, Option.map_some]
  have hlist := finish_list ((req.offset >>> 32).toUInt32 &&& 0x3fffffff) c
  have hfail := checkoutFail_result hsweep
  generalize hend : (if c.find = false ∨ c.invalidMode = true then checkoutFail c
    else checkoutDone ((req.offset >>> 32).toUInt32 &&& 0x3fffffff) c) = p at hcall hlist
  refine ⟨p.1, p.2, hcall, ?_⟩
  rcases hcases with ⟨n, hn, hfind, hgone, hinv, hout, hkept⟩ | ⟨hno, hfind, hkept⟩
  · have huniq : ∀ k, Nearest req.offset.toUInt32 ins k → k = n := fun k hk =>
      Option.some.inj (((nearest_iff hs).mp hk).symm.trans ((nearest_iff hs).mp hn))
    refine ⟨fun k hk => ?_, fun hno => absurd hn (hno n), fun m hm hgone' => ?_⟩
    · obtain rfl := huniq k hk
      refine ⟨hlist ▸ hgone, ?_⟩
      cases hi : (ins.nodes k).invalid with
      | true =>
        have hcond : c.find = false ∨ c.invalidMode = true := .inr (hinv.trans hi)
        rw [← hend, if_pos hcond]
        exact hfail
      | false =>
        have hvalid : c.invalidMode = false := hinv.trans hi
        have hcond : ¬ (c.find = false ∨ c.invalidMode = true) := by
          rw [hfind, hvalid]
          decide
        rw [← hend, if_neg hcond]
        exact hout hvalid
    · rw [hlist] at hgone'
      rcases hkept m hm hgone' with rfl | hd
      · exact .inl hn
      · exact .inr hd
  · refine ⟨fun n hn => absurd hn (hno n), fun _ => ?_, fun m hm hgone => ?_⟩
    · have hcond : c.find = false ∨ c.invalidMode = true := .inl hfind
      rw [← hend, if_pos hcond]
      exact hfail
    · rw [hlist] at hgone
      exact .inr (hkept m hm hgone)

end

/-- Offset mode that was left over from C2 mode, a matched check-out, and four nodes. -/
def leftOver : List Op :=
  [.setMode true, .setMode false, .checkinPtsSize ⟨100, 90, 1000⟩ true,
    .checkoutPtsOffset ⟨110, 0, 0⟩, .checkinPtsSize ⟨200, 180, 2000⟩ true,
    .checkinPtsSize ⟨300, 270, 3000⟩ true, .checkinPtsSize ⟨300, 360, 4000⟩ true,
    .checkinPtsSize ⟨400, 450, 5000⟩ true]

instance (ins : PtsServerIns) : Decidable (InOffsetMode ins) :=
  decidable_of_iff (ins.mOffsetMode = true ∧ ins.setC2Mode = false ∧ ins.mTrickMode = 0 ∧
    ins.mPtsCheckoutStarted ≠ 0)
    ⟨fun h => ⟨h.1, h.2.1, h.2.2.1, h.2.2.2⟩, fun h => ⟨h.mode, h.c2, h.trick, h.started⟩⟩

instance (cur : UInt32) (ins : PtsServerIns) : Decidable (Sorted cur ins) :=
  decidable_of_iff (ins.ptsList.Pairwise (fun m n => (ins.nodes m).offset ≤ (ins.nodes n).offset) ∧
    ∀ n ∈ ins.ptsList, cur.toNat - (ins.nodes n).offset.toNat ≤ 2 ^ 31 ∧
      (ins.nodes n).offset.toNat - cur.toNat ≤ 2 ^ 31)
    ⟨fun h => ⟨h.1, h.2⟩, fun h => ⟨h.sorted, h.near⟩⟩

theorem checkout_selects_nearest_leftOver :
    ∃ ins, run step (emptyInstance 4) leftOver = some ins ∧
      ∃ ins' out, ptsserverCheckoutPtsOffset ⟨350, 0, 0⟩ ins = some (ins', out) ∧
        Selects ⟨350, 0, 0⟩ ins ins' out := by
  have hread : (run step (emptyInstance 4) leftOver).map (fun s =>
      (decide (InOffsetMode s), decide (Sorted 350 s))) = some (true, true) := by decide +kernel
  obtain ⟨ins, hrun, hins⟩ := Option.map_eq_some_iff.mp hread
  obtain ⟨hmode, hsorted⟩ := Prod.mk.inj hins
  exact ⟨ins, hrun, checkout_selects_nearest (run_pooled hrun) (of_decide_eq_true hmode)
    (of_decide_eq_true hsorted) (by decide)⟩

end MediaModules.PtsServer
