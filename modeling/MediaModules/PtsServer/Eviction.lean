import Mathlib.Data.List.TakeWhile
import Mathlib.Tactic.Common
import MediaModules.PtsServer.Stored

/-!
# How many nodes a full list loses

The eviction of `ptsserver_checkin_pts_size` compares every node with `mLastDropIndex`, and moves
that index with each node it takes out. A node right after the first one is compared with the
next index already.
-/
namespace MediaModules.PtsServer

open MediaModules.Lib.Run

/-- The head check-in evicts one node, the others stay as they are, and the list is full again. -/
def OneEvicted (req : CheckinPtsSize) (isOffset : Bool) (ins : PtsServerIns) : Prop :=
  ∃ ins₁ ins' n, checkinEvict ins = some ins₁ ∧ n ∈ ins.ptsList ∧
    ins₁.ptsList = ins.ptsList.erase n ∧ ptsserverCheckinPtsSize req isOffset ins = some (ins', 0) ∧
    (∀ m ∈ ins.ptsList, m ≠ n → m ∈ ins'.ptsList ∧ ins'.nodes m = ins.nodes m) ∧
    ins'.mListSize = ins.mMaxCount

/-- No node is up to `mLastDropIndex`, or none after the first such is up to the next index. -/
def DropsOne (ins : PtsServerIns) : Prop :=
  match ins.ptsList.dropWhile fun n => ins.mLastDropIndex < (ins.nodes n).index with
  | [] => True
  | _ :: rest => ∀ m ∈ rest, ins.mLastDropIndex + 1 < (ins.nodes m).index

section

variable {ins ins' ins₁ : PtsServerIns} {n : NodeId} {pre post : List NodeId} {del : Bool}

/-- The loop passes the nodes above the index. -/
theorem evictDropped_pass (post : List NodeId) (del : Bool)
    (hpre : ∀ m ∈ pre, ins.mLastDropIndex < (ins.nodes m).index) :
    evictDropped (pre ++ post) ins del = evictDropped post ins del := by
  induction pre with
  | nil => rfl
  | cons m pre ih =>
    have hm := UInt32.not_le.mpr (hpre m List.mem_cons_self)
    rw [List.cons_append, evictDropped, if_neg hm]
    exact ih fun k hk => hpre k (List.mem_cons_of_mem m hk)

theorem evictDropped_none (hl : ∀ m ∈ pre, ins.mLastDropIndex < (ins.nodes m).index) :
    evictDropped pre ins del = some (ins, del) := by
  have h := evictDropped_pass [] del hl
  rwa [List.append_nil] at h

/-- The instance after the loop took a node out. -/
def dropped (n : NodeId) (ins : PtsServerIns) : PtsServerIns :=
  { queued n ins with mLastDropIndex := ins.mLastDropIndex + 1 }

theorem dropped_pooled (h : Pooled ins) (hn : n ∈ ins.ptsList) : Pooled (dropped n ins) :=
  let hq := (queueEmpty_eq h hn).2
  ⟨hq.split, hq.size⟩

theorem evictDropped_take (post : List NodeId) (del : Bool) (h : Pooled ins) (hn : n ∈ ins.ptsList)
    (hpre : ∀ m ∈ pre, ins.mLastDropIndex < (ins.nodes m).index)
    (hle : (ins.nodes n).index ≤ ins.mLastDropIndex) :
    evictDropped (pre ++ n :: post) ins del = evictDropped post (dropped n ins) true := by
  rw [evictDropped_pass _ _ hpre, evictDropped, if_pos hle, (queueEmpty_eq h hn).1]
  rfl

/-- A list whose nodes leave in order, up to the first that `p` lets pass. -/
theorem dropWhile_split {p : NodeId → Bool} {l : List NodeId} (h : l.dropWhile p = n :: post) :
    (l = l.takeWhile p ++ n :: post) ∧ (∀ m ∈ l.takeWhile p, p m = true) ∧ p n = false := by
  refine ⟨?_, fun m hm => List.mem_takeWhile_imp hm, ?_⟩
  · rw [← h]
    exact List.takeWhile_append_dropWhile.symm
  · have hhead := List.head_dropWhile_not p (l := l) (by rw [h]; exact List.cons_ne_nil n post)
    simpa only [h, List.head_cons] using hhead

/-- The first node the loop takes out. -/
theorem evictDropped_split (h : Pooled ins)
    (hl : ins.ptsList.dropWhile (fun m => ins.mLastDropIndex < (ins.nodes m).index) = n :: post) :
    n ∈ ins.ptsList ∧
      evictDropped ins.ptsList ins false = evictDropped post (dropped n ins) true ∧
      post.Nodup ∧ ∀ m ∈ post, m ∈ (dropped n ins).ptsList := by
  obtain ⟨hsplit, hpre, hn⟩ := dropWhile_split hl
  have hmem : n ∈ ins.ptsList := by
    rw [hsplit]
    exact List.mem_append_right _ List.mem_cons_self
  have hnd := h.list_nodup
  rw [hsplit] at hnd
  obtain ⟨hnpost, hpost⟩ := List.nodup_cons.mp (List.nodup_append.mp hnd).2.1
  refine ⟨hmem, ?_, hpost, fun m hm => ?_⟩
  · have htake := evictDropped_take post false h hmem
      (fun m hm => of_decide_eq_true (hpre m hm))
      (UInt32.not_lt.mp (of_decide_eq_false hn))
    rwa [← hsplit] at htake
  · refine h.mem_erase.mpr ⟨fun he => hnpost (he ▸ hm), ?_⟩
    rw [hsplit]
    exact List.mem_append_right _ (List.mem_cons_of_mem n hm)

/-- A node up to the index leaves, whatever the loop did before. -/
theorem evictDropped_shorter (h : Pooled ins) (hl : pre.Nodup) (hmem : ∀ m ∈ pre, m ∈ ins.ptsList)
    (hn : ∃ m ∈ pre, (ins.nodes m).index ≤ ins.mLastDropIndex)
    (he : evictDropped pre ins del = some (ins', del')) :
    ins'.ptsList.length < ins.ptsList.length := by
  induction pre with
  | nil =>
    obtain ⟨m, hm, -⟩ := hn
    exact nomatch hm
  | cons m pre ih =>
    obtain ⟨hnm, hl⟩ := List.nodup_cons.mp hl
    have hm := hmem m List.mem_cons_self
    have hrest : ∀ k ∈ pre, k ∈ ins.ptsList := fun k hk => hmem k (List.mem_cons_of_mem m hk)
    by_cases hle : (ins.nodes m).index ≤ ins.mLastDropIndex
    · have htake := evictDropped_take pre del h hm
        (show ∀ k ∈ [], ins.mLastDropIndex < (ins.nodes k).index from fun _ hk => nomatch hk) hle
      have hmem' : ∀ k ∈ pre, k ∈ (dropped m ins).ptsList := fun k hk =>
        h.mem_erase.mpr ⟨fun he => hnm (he ▸ hk), hrest k hk⟩
      obtain ⟨ins₂, del₂, h2, -, -, -, -, hlen⟩ :=
        evictDropped_pooled pre (dropped m ins) true (dropped_pooled h hm) hl hmem'
      rw [List.nil_append, he, h2] at htake
      have hins : ins' = ins₂ := congrArg Prod.fst (Option.some.inj htake)
      have hone : (dropped m ins).ptsList.length = ins.ptsList.length - 1 :=
        List.length_erase_of_mem hm
      have hpos := List.length_pos_of_mem hm
      rw [hins]
      omega
    · rw [evictDropped, if_neg hle] at he
      obtain ⟨k, hk, hkle⟩ := hn
      rcases List.mem_cons.mp hk with rfl | hk
      · exact absurd hkle hle
      · exact ih hl hrest ⟨k, hk, hkle⟩ he

/-- The eviction moved `n` to the free list, and touched no node. -/
structure Evicts (n : NodeId) (ins ins₁ : PtsServerIns) : Prop where
  mem : n ∈ ins.ptsList
  evict : checkinEvict ins = some ins₁
  nodes : ins₁.nodes = ins.nodes
  list : ins₁.ptsList = ins.ptsList.erase n
  free : ins₁.ptsFreeList = ins.ptsFreeList ++ [n]
  size : ins₁.mListSize = ins.mListSize - 1

/-- With a full list the new node takes the place of the evicted one. -/
theorem oneEvicted_of_evicts {req : CheckinPtsSize} {isOffset : Bool} (h : Pooled ins)
    (hfull : ins.mListSize = ins.mMaxCount) (hpos : 1 ≤ ins.mMaxCount) (hpts : req.pts ≠ 0)
    (he : Evicts n ins ins₁) : OneEvicted req isOffset ins := by
  obtain ⟨ins', hs, -⟩ := ptsserverCheckinPtsSize_pooled req isOffset h
    (Nat.lt_of_lt_of_le Nat.zero_lt_one (UInt32.le_iff_toNat_le.mp hpos))
  refine ⟨ins₁, ins', n, he.evict, he.mem, he.list, hs, ?_⟩
  obtain ⟨ins₂, k, rest, h2, -, hfree, -, rfl⟩ := checkinPtsSize_head h hpts hs
  obtain rfl : ins₁ = ins₂ := Option.some.inj (he.evict.symm.trans h2)
  have hnil : ins.ptsFreeList = [] := by
    have hlen := h.length_add
    rw [← h.size, hfull] at hlen
    exact List.length_eq_zero_iff.mp (by omega)
  have hkn : k = n := by
    have hlist := he.free
    rw [hnil, hfree, List.nil_append] at hlist
    exact (List.cons.inj hlist).1
  rw [hkn]
  refine ⟨fun m hm hmn => ⟨?_, ?_⟩, ?_⟩
  · rw [(checkinDone_samePool ..).list]
    refine mem_linked.mpr (.inr ?_)
    show m ∈ ins₁.ptsList
    rw [he.list]
    exact h.mem_erase.mpr ⟨hmn, hm⟩
  · rw [checkinDone_nodes, linked_node_of_ne hmn]
    exact congrFun he.nodes m
  · rw [(checkinDone_samePool ..).size]
    show ins₁.mListSize + 1 = _
    rw [he.size, UInt32.sub_add_cancel, hfull]

/-- The eviction when the loop finds nothing. -/
theorem evicts_first (h : Pooled ins) (hfull : ins.mListSize = ins.mMaxCount)
    (hpos : 1 ≤ ins.mMaxCount)
    (hl : ∀ m ∈ ins.ptsList, ins.mLastDropIndex < (ins.nodes m).index) :
    ∃ n, Evicts n ins (queued n ins) := by
  have hlen : 0 < ins.ptsList.length := by
    rw [← h.size, hfull]
    exact Nat.lt_of_lt_of_le Nat.zero_lt_one (UInt32.le_iff_toNat_le.mp hpos)
  obtain ⟨n, rest, hlist⟩ := List.exists_cons_of_length_pos hlen
  have hn : n ∈ ins.ptsList := hlist ▸ List.mem_cons_self
  refine ⟨n, hn, ?_, rfl, rfl, rfl, rfl⟩
  unfold checkinEvict
  rw [if_pos (UInt32.le_of_eq hfull.symm), evictDropped_none hl, Option.bind_some,
    if_neg Bool.false_ne_true]
  unfold evictFirst
  rw [hlist]
  exact (queueEmpty_eq h hn).1

theorem oneEvicted_iff {req : CheckinPtsSize} {isOffset : Bool} (h : Pooled ins)
    (hfull : ins.mListSize = ins.mMaxCount) (hpos : 1 ≤ ins.mMaxCount) (hpts : req.pts ≠ 0) :
    OneEvicted req isOffset ins ↔ DropsOne ins := by
  unfold DropsOne
  split
  · rename_i hl
    have habove : ∀ m ∈ ins.ptsList, ins.mLastDropIndex < (ins.nodes m).index := fun m hm =>
      of_decide_eq_true (List.dropWhile_eq_nil_iff.mp hl m hm)
    obtain ⟨n, he⟩ := evicts_first h hfull hpos habove
    exact iff_of_true (oneEvicted_of_evicts h hfull hpos hpts he) trivial
  · rename_i n post hl
    obtain ⟨hn, hloop, hnd, hmem⟩ := evictDropped_split h hl
    have hdrop := dropped_pooled h hn
    have hevict : checkinEvict ins = (evictDropped post (dropped n ins) true).bind fun p =>
        if p.2 then some p.1 else evictFirst p.1 := by
      unfold checkinEvict
      rw [if_pos (UInt32.le_of_eq hfull.symm), hloop]
    constructor
    · rintro ⟨ins₁, -, k, hev, hk, hlist, -⟩
      by_contra hnot
      simp only [not_forall, UInt32.not_lt] at hnot
      obtain ⟨m, hm, hle⟩ := hnot
      obtain ⟨ins₂, del, h2, -, -, hf, -, -⟩ :=
        evictDropped_pooled post (dropped n ins) true hdrop hnd hmem
      have hshort := evictDropped_shorter hdrop hnd hmem ⟨m, hm, hle⟩ h2
      have hdel : del = true := by
        cases del with
        | true => rfl
        | false => exact absurd (hf rfl).1 (by decide)
      rw [hevict, h2, Option.bind_some, if_pos hdel] at hev
      have hins : ins₂ = ins₁ := Option.some.inj hev
      rw [hins, hlist, List.length_erase_of_mem hk] at hshort
      have hone : (dropped n ins).ptsList.length = ins.ptsList.length - 1 :=
        List.length_erase_of_mem hn
      omega
    · intro habove
      have hone : Evicts n ins (dropped n ins) := by
        refine ⟨hn, ?_, rfl, rfl, rfl, rfl⟩
        rw [hevict, evictDropped_none habove]
        rfl
      exact oneEvicted_of_evicts h hfull hpos hpts hone

end

/-- Of a full list a head check-in evicts exactly one node iff the loop takes one at most. -/
theorem one_evicted_iff {allocParm : AllocPara} {nodes : NodeId → PtsNode}
    {ins₀ ins : PtsServerIns} {ops : List Op} {req : CheckinPtsSize} {isOffset : Bool}
    (hr : run step (ptsserverInsInitSyncinfo allocParm (some nodes) ins₀).1 ops = some ins)
    (hfull : ins.mListSize = ins.mMaxCount) (hpos : 1 ≤ ins.mMaxCount) (hpts : req.pts ≠ 0) :
    OneEvicted req isOffset ins ↔ DropsOne ins :=
  oneEvicted_iff (run_pooled hr) hfull hpos hpts

/-- Two nodes stored in order. -/
def twoCheckins : List Op :=
  [.checkinPtsSize ⟨100, 90, 1000⟩ true, .checkinPtsSize ⟨200, 180, 2000⟩ true]

/-- The third check-in of a list of two evicts both. -/
theorem twoCheckins_bothEvicted :
    ∃ ins, run step (emptyInstance 2) twoCheckins = some ins ∧ ins.mListSize = ins.mMaxCount ∧
      1 ≤ ins.mMaxCount ∧ ¬ OneEvicted ⟨300, 270, 3000⟩ true ins := by
  have hread : (run step (emptyInstance 2) twoCheckins).map (fun s =>
      ((s.mListSize, s.mMaxCount), s.ptsList, (checkinEvict s).map PtsServerIns.ptsList)) =
      some ((2, 2), [0, 1], some []) := by decide +kernel
  obtain ⟨ins, hrun, hins⟩ := Option.map_eq_some_iff.mp hread
  simp only [Prod.mk.injEq] at hins
  obtain ⟨⟨hsize, hmax⟩, hlist, hevict⟩ := hins
  have hpos : 1 ≤ ins.mMaxCount := by
    rw [hmax]
    decide
  refine ⟨ins, hrun, hsize.trans hmax.symm, hpos, ?_⟩
  rintro ⟨ins₁, -, n, hev, hn, hone, -⟩
  rw [hev, Option.map_some, Option.some.injEq] at hevict
  have hlen := List.length_erase_of_mem hn
  rw [← hone, hevict, hlist] at hlen
  exact absurd hlen (by decide)

/-- The second of three check-ins has the smallest time stamp. -/
def unorderedCheckins : List Op :=
  [.checkinPtsSize ⟨100, 180, 2000⟩ true, .checkinPtsSize ⟨200, 90, 1000⟩ true,
    .checkinPtsSize ⟨300, 270, 3000⟩ true]

/-- The fourth check-in evicts the first one, and leaves two. -/
theorem one_evicted_unordered :
    ∃ ins, run step (emptyInstance 3) unorderedCheckins = some ins ∧
      OneEvicted ⟨400, 360, 4000⟩ true ins := by
  have hread : (run step (emptyInstance 3) unorderedCheckins).map (fun s =>
      ((s.mListSize, s.mMaxCount),
        s.ptsList.dropWhile (fun n => s.mLastDropIndex < (s.nodes n).index),
        decide (s.mLastDropIndex + 1 < (s.nodes 2).index))) =
      some ((3, 3), [0, 2], true) := by decide +kernel
  obtain ⟨ins, hrun, hins⟩ := Option.map_eq_some_iff.mp hread
  simp only [Prod.mk.injEq] at hins
  obtain ⟨⟨hsize, hmax⟩, hlist, hlater⟩ := hins
  have hpos : 1 ≤ ins.mMaxCount := by
    rw [hmax]
    decide
  refine ⟨ins, hrun, (one_evicted_iff hrun (hsize.trans hmax.symm) hpos (by decide)).mpr ?_⟩
  unfold DropsOne
  rw [hlist]
  intro m hm
  obtain rfl := List.mem_singleton.mp hm
  exact of_decide_eq_true hlater

end MediaModules.PtsServer
