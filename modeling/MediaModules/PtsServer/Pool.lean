import Mathlib.Tactic.Common
import MediaModules.Lib.Run
import MediaModules.PtsServer.Checkout

/-!
# The nodes of an instance

Every node of the array is in exactly one of `pts_list` and `pts_free_list`, and `mListSize`
counts the first. The searches move nodes while they hold candidates; a candidate is never
one of the nodes moved.
-/
namespace MediaModules.PtsServer

open MediaModules.Lib.NodeLists
open MediaModules.Lib.Run

/-- The nodes are split between the lists and counted. -/
structure Pooled (ins : PtsServerIns) : Prop where
  split : Partition (List.range ins.mMaxCount.toNat) ins.ptsList ins.ptsFreeList
  size : ins.mListSize.toNat = ins.ptsList.length

/-- The lists and their count are the same. -/
structure SamePool (ins ins' : PtsServerIns) : Prop where
  list : ins'.ptsList = ins.ptsList
  free : ins'.ptsFreeList = ins.ptsFreeList
  count : ins'.mMaxCount = ins.mMaxCount
  size : ins'.mListSize = ins.mListSize

namespace SamePool

variable {ins ins' ins'' : PtsServerIns}

theorem refl (ins : PtsServerIns) : SamePool ins ins := ⟨rfl, rfl, rfl, rfl⟩

theorem trans (h : SamePool ins ins') (h' : SamePool ins' ins'') : SamePool ins ins'' :=
  ⟨h'.list.trans h.list, h'.free.trans h.free, h'.count.trans h.count, h'.size.trans h.size⟩

theorem pooled (h : SamePool ins ins') (hp : Pooled ins) : Pooled ins' := by
  refine ⟨?_, ?_⟩
  · rw [h.list, h.free, h.count]
    exact hp.split
  · rw [h.list, h.size]
    exact hp.size

end SamePool

namespace Pooled

variable {ins : PtsServerIns} {n : NodeId}

theorem nodup (h : Pooled ins) : (ins.ptsList ++ ins.ptsFreeList).Nodup :=
  h.split.nodup List.nodup_range

theorem list_nodup (h : Pooled ins) : ins.ptsList.Nodup := (List.nodup_append.mp h.nodup).1

theorem length_add (h : Pooled ins) :
    ins.ptsList.length + ins.ptsFreeList.length = ins.mMaxCount.toNat := by
  rw [h.split.length_add, List.length_range]

theorem mem_erase (h : Pooled ins) {m : NodeId} :
    m ∈ ins.ptsList.erase n ↔ m ≠ n ∧ m ∈ ins.ptsList :=
  h.list_nodup.mem_erase_iff

end Pooled

/-- The instance after a used node went to the free list. -/
def queued (n : NodeId) (ins : PtsServerIns) : PtsServerIns :=
  { ins with
    ptsList := ins.ptsList.erase n
    ptsFreeList := ins.ptsFreeList ++ [n]
    mListSize := ins.mListSize - 1 }

/-- A used node can be moved. -/
theorem queueEmpty_eq {ins : PtsServerIns} (h : Pooled ins) {n : NodeId}
    (hn : n ∈ ins.ptsList) : ins.queueEmpty n = some (queued n ins) ∧ Pooled (queued n ins) := by
  have hfree : n ∉ ins.ptsFreeList := h.split.not_mem_free List.nodup_range hn
  have hlist : n ∉ ins.ptsList.erase n := fun hm => (h.mem_erase.mp hm).1 rfl
  have hpos : 0 < ins.ptsList.length := List.length_pos_of_mem hn
  refine ⟨?_, h.split.release hn, ?_⟩
  · unfold PtsServerIns.queueEmpty PtsServerIns.listDel PtsServerIns.freeAddTail
    rw [if_pos hn]
    simp only [bind, Option.bind_some]
    rw [if_neg (fun hl => hl.elim hlist hfree)]
    rfl
  · show (ins.mListSize - 1).toNat = (ins.ptsList.erase n).length
    have hle : (1 : UInt32) ≤ ins.mListSize := by
      rw [UInt32.le_iff_toNat_le, h.size]
      exact hpos
    rw [UInt32.toNat_sub_of_le _ _ hle, h.size, List.length_erase_of_mem hn]
    rfl

/-! ## Eviction -/

/-- The first eviction loop moves every node it counts; without one nothing changes. -/
theorem evictDropped_pooled (l : List NodeId) :
    ∀ (ins : PtsServerIns) (del : Bool), Pooled ins → l.Nodup → (∀ n ∈ l, n ∈ ins.ptsList) →
      ∃ ins' del', evictDropped l ins del = some (ins', del') ∧ Pooled ins' ∧
        ins'.mMaxCount = ins.mMaxCount ∧
        (del' = false → del = false ∧ ins' = ins) ∧
        (del' = true → del = true ∨ ins'.ptsList.length < ins.ptsList.length) ∧
        ins'.ptsList.length ≤ ins.ptsList.length := by
  induction l with
  | nil =>
    intro ins del h _ _
    exact ⟨ins, del, rfl, h, rfl, fun hd => ⟨hd, rfl⟩, fun hd => .inl hd, Nat.le_refl _⟩
  | cons n l ih =>
    intro ins del h hl hmem
    obtain ⟨hnl, hl⟩ := List.nodup_cons.mp hl
    have hn := hmem n List.mem_cons_self
    unfold evictDropped
    split
    · obtain ⟨hq, hp⟩ := queueEmpty_eq h hn
      have hmem' : ∀ m ∈ l, m ∈ (queued n ins).ptsList := fun m hm =>
        h.mem_erase.mpr ⟨fun he => hnl (he ▸ hm), hmem m (List.mem_cons_of_mem _ hm)⟩
      have hlen : (queued n ins).ptsList.length < ins.ptsList.length := by
        show (ins.ptsList.erase n).length < _
        rw [List.length_erase_of_mem hn]
        have hpos := List.length_pos_of_mem hn
        omega
      obtain ⟨ins', del', h1, hp', hc, hf, ht, hle⟩ :=
        ih { queued n ins with mLastDropIndex := (queued n ins).mLastDropIndex + 1 }
          true ⟨hp.split, hp.size⟩ hl hmem'
      have hshort : ins'.ptsList.length < ins.ptsList.length := Nat.lt_of_le_of_lt hle hlen
      refine ⟨ins', del', ?_, hp', hc, fun hd => ?_, fun _ => .inr hshort, by omega⟩
      · rw [hq]
        exact h1
      · exact absurd (hf hd).1 (by simp)
    · exact ih ins del h hl fun m hm => hmem m (List.mem_cons_of_mem _ hm)

theorem evictFirst_pooled {ins : PtsServerIns} (h : Pooled ins) (hne : 0 < ins.ptsList.length) :
    ∃ ins', evictFirst ins = some ins' ∧ Pooled ins' ∧ ins'.mMaxCount = ins.mMaxCount ∧
      ins'.ptsList.length < ins.ptsList.length := by
  unfold evictFirst
  match hl : ins.ptsList with
  | [] => simp [hl] at hne
  | n :: rest =>
    have hn : n ∈ ins.ptsList := hl ▸ List.mem_cons_self
    obtain ⟨hq, hp⟩ := queueEmpty_eq h hn
    refine ⟨_, hq, hp, rfl, ?_⟩
    show (ins.ptsList.erase n).length < _
    rw [List.length_erase_of_mem hn, hl]
    exact Nat.lt_succ_self _

/-- A check-in makes room for a node. -/
structure HasRoom (ins ins' : PtsServerIns) : Prop where
  pooled : Pooled ins'
  count : ins'.mMaxCount = ins.mMaxCount
  room : ins'.ptsFreeList ≠ []

theorem hasRoom_of_length {ins ins' : PtsServerIns} (hp : Pooled ins')
    (hc : ins'.mMaxCount = ins.mMaxCount)
    (hlt : ins'.ptsList.length < ins.mMaxCount.toNat) : HasRoom ins ins' := by
  refine ⟨hp, hc, fun hnil => ?_⟩
  have hlen := hp.length_add
  rw [hnil, hc, List.length_nil] at hlen
  omega

theorem checkinEvict_room {ins : PtsServerIns} (h : Pooled ins) (hpos : 0 < ins.mMaxCount.toNat) :
    ∃ ins', checkinEvict ins = some ins' ∧ HasRoom ins ins' := by
  have hle : ins.ptsList.length ≤ ins.mMaxCount.toNat := by
    rw [← h.length_add]
    exact Nat.le_add_right _ _
  unfold checkinEvict
  split
  · rename_i hfull
    rw [ge_iff_le, UInt32.le_iff_toNat_le, h.size] at hfull
    obtain ⟨ins₁, del, h1, hp, hc, hf, ht, -⟩ :=
      evictDropped_pooled ins.ptsList ins false h h.list_nodup fun _ hn => hn
    rw [h1, Option.bind_some]
    cases del with
    | true =>
      have hlt := (ht rfl).resolve_left (by simp)
      exact ⟨ins₁, rfl, hasRoom_of_length hp hc (by omega)⟩
    | false =>
      obtain rfl := (hf rfl).2
      obtain ⟨ins₂, h2, hp2, hc2, hlt⟩ := evictFirst_pooled h (by omega)
      exact ⟨ins₂, h2, hasRoom_of_length hp2 hc2 (by omega)⟩
  · rename_i hfull
    rw [ge_iff_le, UInt32.le_iff_toNat_le, h.size, Nat.not_le] at hfull
    exact ⟨ins, rfl, hasRoom_of_length h rfl hfull⟩

theorem checkinAptsEvict_room {ins : PtsServerIns} (h : Pooled ins)
    (hpos : 0 < ins.mMaxCount.toNat) :
    ∃ ins', checkinAptsEvict ins = some ins' ∧ HasRoom ins ins' := by
  have hle : ins.ptsList.length ≤ ins.mMaxCount.toNat := by
    rw [← h.length_add]
    exact Nat.le_add_right _ _
  unfold checkinAptsEvict
  split
  · rename_i hfull
    rw [ge_iff_le, UInt32.le_iff_toNat_le, h.size] at hfull
    obtain ⟨ins₁, h1, hp, hc, hlt⟩ := evictFirst_pooled h (by omega)
    exact ⟨ins₁, h1, hasRoom_of_length hp hc (by omega)⟩
  · rename_i hfull
    rw [ge_iff_le, UInt32.le_iff_toNat_le, h.size, Nat.not_le] at hfull
    exact ⟨ins, rfl, hasRoom_of_length h rfl hfull⟩

/-! ## Check-in -/

/-- The first free node is taken out. -/
theorem listDel_free {ins : PtsServerIns} (h : Pooled ins) {n : NodeId} {rest : List NodeId}
    (hf : ins.ptsFreeList = n :: rest) :
    ins.listDel n = some { ins with ptsFreeList := rest } ∧ n ∉ ins.ptsList ∧ n ∉ rest := by
  have hnd := h.nodup
  rw [hf, List.nodup_append] at hnd
  have hlist : n ∉ ins.ptsList := fun hm => hnd.2.2 n hm n List.mem_cons_self rfl
  refine ⟨?_, hlist, (List.nodup_cons.mp hnd.2.1).1⟩
  unfold PtsServerIns.listDel
  rw [if_neg hlist, if_pos (hf ▸ List.mem_cons_self), hf, List.erase_cons_head]

theorem listAddBefore_eq {ins : PtsServerIns} {n : NodeId} (stop : NodeId → Bool)
    (hl : n ∉ ins.ptsList) (hf : n ∉ ins.ptsFreeList) :
    ins.listAddBefore stop n = some { ins with ptsList := insertBefore stop n ins.ptsList } :=
  if_neg fun h => h.elim hl hf

/-- The lists and the count after the first free node was linked. -/
theorem pooled_claim {ins ins' : PtsServerIns} (h : Pooled ins) {n : NodeId} {rest : List NodeId}
    (hf : ins.ptsFreeList = n :: rest) {stop : NodeId → Bool}
    (hlist : ins'.ptsList = insertBefore stop n ins.ptsList) (hfree : ins'.ptsFreeList = rest)
    (hc : ins'.mMaxCount = ins.mMaxCount) (hs : ins'.mListSize = ins.mListSize + 1) :
    Pooled ins' := by
  refine ⟨?_, ?_⟩
  · rw [hlist, hfree, hc]
    have hsplit := h.split
    rw [hf] at hsplit
    exact hsplit.claim (insertBefore_perm stop n ins.ptsList)
  · have hlen := h.length_add
    have hmax := ins.mMaxCount.toNat_lt
    rw [hf, List.length_cons] at hlen
    rw [hs, hlist, insertBefore_length, UInt32.toNat_add, h.size]
    show (_ + 1) % 2 ^ 32 = _
    omega

theorem recordCheckin_samePool (req : CheckinPtsSize) (isOffset : Bool) (ins : PtsServerIns) :
    SamePool ins (recordCheckin req isOffset ins) := ⟨rfl, rfl, rfl, rfl⟩

theorem recordPiece_samePool (req : CheckinPtsSize) (ins : PtsServerIns) :
    SamePool ins (recordPiece req ins) := ⟨rfl, rfl, rfl, rfl⟩

theorem recordFirst_samePool (req : CheckinPtsSize) (isOffset : Bool) (ins : PtsServerIns) :
    SamePool ins (recordFirst req isOffset ins) := by
  unfold recordFirst
  split <;> exact ⟨rfl, rfl, rfl, rfl⟩

theorem alignOffset_samePool (offset : UInt32) (ins : PtsServerIns) :
    SamePool ins (alignOffset offset ins) := by
  unfold alignOffset
  split <;> exact ⟨rfl, rfl, rfl, rfl⟩

theorem checkinDone_samePool (req : CheckinPtsSize) (isOffset : Bool) (offset : UInt32)
    (ins : PtsServerIns) : SamePool ins (checkinDone req isOffset offset ins) :=
  ((recordFirst_samePool req isOffset ins).trans (alignOffset_samePool offset _)).trans
    (recordPiece_samePool req _)

theorem recordFirstApts_samePool (req : CheckinAptsSize) (ins : PtsServerIns) :
    SamePool ins (recordFirstApts req ins) := by
  unfold recordFirstApts
  split <;> exact ⟨rfl, rfl, rfl, rfl⟩

theorem checkinAptsDone_samePool (req : CheckinAptsSize) (ins : PtsServerIns) :
    SamePool ins (checkinAptsDone req ins) :=
  (recordFirstApts_samePool req ins).trans ⟨rfl, rfl, rfl, rfl⟩

theorem checkinHead_pooled (req : CheckinPtsSize) (isOffset : Bool) {ins : PtsServerIns}
    (h : Pooled ins) (hroom : ins.ptsFreeList ≠ []) :
    ∃ ins' n, checkinHead req isOffset ins = some (ins', some n) ∧ Pooled ins' ∧
      ins'.mMaxCount = ins.mMaxCount := by
  unfold checkinHead
  match hf : ins.ptsFreeList with
  | [] => exact absurd hf hroom
  | n :: rest =>
    obtain ⟨hdel, hl, hr⟩ := listDel_free h hf
    dsimp only
    rw [hdel]
    simp only [bind, Option.bind_some]
    rw [listAddBefore_eq _ (by exact hl) (by exact hr)]
    refine ⟨_, n, rfl, pooled_claim h hf rfl rfl rfl rfl, rfl⟩

theorem checkinAptsNode_pooled (req : CheckinAptsSize) {ins : PtsServerIns} (h : Pooled ins)
    (hroom : ins.ptsFreeList ≠ []) :
    ∃ ins' n, checkinAptsNode req ins = some (ins', some n) ∧ Pooled ins' ∧
      ins'.mMaxCount = ins.mMaxCount := by
  unfold checkinAptsNode
  match hf : ins.ptsFreeList with
  | [] => exact absurd hf hroom
  | n :: rest =>
    obtain ⟨hdel, hl, hr⟩ := listDel_free h hf
    dsimp only
    rw [hdel]
    simp only [bind, Option.bind_some]
    rw [listAddBefore_eq _ (by exact hl) (by exact hr)]
    refine ⟨_, n, rfl, pooled_claim h hf rfl rfl rfl rfl, rfl⟩

/-- A video check-in is defined and never fails for lack of a node. -/
theorem ptsserverCheckinPtsSize_pooled (req : CheckinPtsSize) (isOffset : Bool)
    {ins : PtsServerIns} (h : Pooled ins) (hpos : 0 < ins.mMaxCount.toNat) :
    ∃ ins', ptsserverCheckinPtsSize req isOffset ins = some (ins', 0) ∧ Pooled ins' ∧
      ins'.mMaxCount = ins.mMaxCount := by
  obtain ⟨ins₁, h1, hroom⟩ := checkinEvict_room h hpos
  have hrec := recordCheckin_samePool req isOffset ins₁
  have hp := hrec.pooled hroom.pooled
  unfold ptsserverCheckinPtsSize
  simp only [h1, bind, Option.bind_some]
  split
  · split
    · rename_i hsize
      cases hlast : (recordCheckin req isOffset ins₁).ptsList.getLast? with
      | none =>
        refine absurd ?_ hsize
        rw [← UInt32.toNat_inj, hp.size, List.getLast?_eq_none_iff.mp hlast]
        rfl
      | some n =>
        have hd := checkinDone_samePool req isOffset
          ((recordCheckin req isOffset ins₁).nodes n).offset (recordCheckin req isOffset ins₁)
        exact ⟨_, rfl, hd.pooled hp, hd.count.trans hroom.count⟩
    · have hd := recordPiece_samePool req (recordCheckin req isOffset ins₁)
      exact ⟨_, rfl, hd.pooled hp, hd.count.trans hroom.count⟩
  · obtain ⟨ins₂, n, h2, hp2, hc2⟩ := checkinHead_pooled req isOffset hp hroom.room
    have hd := checkinDone_samePool req isOffset (ins₂.nodes n).offset ins₂
    rw [h2]
    exact ⟨_, rfl, hd.pooled hp2, (hd.count.trans hc2).trans hroom.count⟩

/-- An audio check-in is defined and never fails for lack of a node. -/
theorem ptsserverCheckinAptsSize_pooled (req : CheckinAptsSize) {ins : PtsServerIns}
    (h : Pooled ins) (hpos : 0 < ins.mMaxCount.toNat) :
    ∃ ins', ptsserverCheckinAptsSize req ins = some (ins', 0) ∧ Pooled ins' ∧
      ins'.mMaxCount = ins.mMaxCount := by
  obtain ⟨ins₁, h1, hroom⟩ := checkinAptsEvict_room h hpos
  obtain ⟨ins₂, n, h2, hp2, hc2⟩ := checkinAptsNode_pooled req hroom.pooled hroom.room
  have hd := checkinAptsDone_samePool req ins₂
  unfold ptsserverCheckinAptsSize
  simp only [h1, bind, Option.bind_some, h2]
  exact ⟨_, rfl, hd.pooled hp2, (hd.count.trans hc2).trans hroom.count⟩

end MediaModules.PtsServer
