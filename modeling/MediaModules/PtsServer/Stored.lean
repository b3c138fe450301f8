import Mathlib.Tactic.Common
import MediaModules.PtsServer.Sweeps

/-!
# What a check-in stores

After the eviction a check-in takes the first free node, fills it and links it. The instance it
leaves is written down as a whole, so that every field of it can be read off.
-/
namespace MediaModules.PtsServer

open MediaModules.Lib.NodeLists
open MediaModules.Lib.Run

/-! ## The node of a video check-in -/

/-- The instance after the head node branch took `n`, the first free node. -/
def linked (req : CheckinPtsSize) (isOffset : Bool) (n : NodeId) (ins : PtsServerIns) :
    PtsServerIns :=
  let ptn := headNode req isOffset ins (ins.nodes n)
  { ins with
    nodes := Function.update ins.nodes n { ptn with durationCount := ins.mLastCheckinDurationCount }
    ptsList := insertBefore (fun m => sortStop ins.setC2Mode ptn (ins.nodes m)) n ins.ptsList
    ptsFreeList := ins.ptsFreeList.tail
    mLastCheckinSize :=
      if isOffset then ins.mLastCheckinSize
      else ins.mLastCheckinPieceOffset - ins.mLastCheckinOffset
    mLastIndex := ins.mLastIndex + 1
    mLastCheckinDurationCount :=
      if rewound ptn ins then ins.mLastCheckinDurationCount + 1 else ins.mLastCheckinDurationCount
    mLastCheckinPts := req.pts
    mLastCheckinPts64 := req.pts64.toUInt32
    mListSize := ins.mListSize + 1 }

section

variable {ins ins' : PtsServerIns} {req : CheckinPtsSize} {isOffset : Bool} {n : NodeId}
  {rest : List NodeId} {r : Int}

/-- The first free node is in no list once it is taken out. -/
theorem first_free (h : Pooled ins) (hf : ins.ptsFreeList = n :: rest) :
    n ∉ ins.ptsList ∧ n ∉ rest :=
  (listDel_free h hf).2

theorem checkinHead_eq (h : Pooled ins) (hf : ins.ptsFreeList = n :: rest) :
    checkinHead req isOffset ins = some (linked req isOffset n ins, some n) := by
  obtain ⟨hdel, hl, hr⟩ := listDel_free h hf
  have hlist (ptn : PtsNode) :
      insertBefore (fun m => sortStop ins.setC2Mode ptn (Function.update ins.nodes n ptn m)) n
        ins.ptsList =
      insertBefore (fun m => sortStop ins.setC2Mode ptn (ins.nodes m)) n ins.ptsList := by
    apply insertBefore_congr
    intro m hm
    have hne : m ≠ n := fun he => hl (he ▸ hm)
    rw [Function.update_of_ne hne]
  have hpts : req.pts.toUInt64.toUInt32 = req.pts := UInt32.toUInt32_toUInt64 req.pts
  unfold checkinHead
  rw [hf]
  dsimp only
  rw [hdel]
  simp only [bind, Option.bind_some]
  rw [listAddBefore_eq _ (by exact hl) (by exact hr), Option.bind_some]
  simp only [linked, PtsServerIns.setNode, Function.update_idem, hlist, hf, List.tail_cons]
  simp only [headNode, hpts]
  rfl

theorem linked_node_self : (linked req isOffset n ins).nodes n =
    { headNode req isOffset ins (ins.nodes n) with
      durationCount := ins.mLastCheckinDurationCount } :=
  Function.update_self ..

theorem linked_node_of_ne {m : NodeId} (hm : m ≠ n) :
    (linked req isOffset n ins).nodes m = ins.nodes m :=
  Function.update_of_ne hm ..

theorem mem_linked {m : NodeId} : m ∈ (linked req isOffset n ins).ptsList ↔ m = n ∨ m ∈ ins.ptsList :=
  mem_insertBefore

/-- An instance without what the end of a check-in records. -/
def PtsServerIns.unrecorded (ins : PtsServerIns) : PtsServerIns :=
  { ins with
    mPtsCheckinStarted := 0
    mFirstCheckinOffset := 0
    mFirstCheckinSize := 0
    mFirstCheckinPts := 0
    mFirstCheckinPts64 := 0
    mLastCheckinOffset := 0
    mAlignmentOffset := 0
    mLastCheckinPieceOffset := 0
    mLastCheckinPieceSize := 0
    mLastCheckinPiecePts := 0
    mLastCheckinPiecePts64 := 0 }

theorem checkinDone_unrecorded (req : CheckinPtsSize) (isOffset : Bool) (offset : UInt32)
    (ins : PtsServerIns) : (checkinDone req isOffset offset ins).unrecorded = ins.unrecorded := by
  have hfirst : (recordFirst req isOffset ins).unrecorded = ins.unrecorded := by
    unfold recordFirst
    split <;> rfl
  have halign : (alignOffset offset (recordFirst req isOffset ins)).unrecorded =
      (recordFirst req isOffset ins).unrecorded := by
    unfold alignOffset
    split <;> rfl
  exact halign.trans hfirst

/-- What does not look at the records is the same at the end. -/
theorem checkinDone_read {α : Type*} {req : CheckinPtsSize} {isOffset : Bool} {offset : UInt32}
    {ins : PtsServerIns} (f : PtsServerIns → α) (hf : ∀ i, f i.unrecorded = f i) :
    f (checkinDone req isOffset offset ins) = f ins := by
  rw [← hf (checkinDone ..), checkinDone_unrecorded, hf ins]

theorem checkinDone_nodes (req : CheckinPtsSize) (isOffset : Bool) (offset : UInt32)
    (ins : PtsServerIns) : (checkinDone req isOffset offset ins).nodes = ins.nodes :=
  checkinDone_read PtsServerIns.nodes fun _ => rfl

/-- An eviction that was defined left a free node. -/
theorem checkinEvict_hasRoom (h : Pooled ins) (he : checkinEvict ins = some ins') :
    HasRoom ins ins' := by
  by_cases hpos : 0 < ins.mMaxCount.toNat
  · obtain ⟨ins₁, h1, hroom⟩ := checkinEvict_room h hpos
    rw [he] at h1
    exact Option.some.inj h1 ▸ hroom
  · have hlen := h.length_add
    have hnil : ins.ptsList = [] := List.length_eq_zero_iff.mp (by omega)
    have hge : ins.mListSize ≥ ins.mMaxCount := by
      rw [ge_iff_le, UInt32.le_iff_toNat_le]
      omega
    unfold checkinEvict at he
    rw [if_pos hge, hnil] at he
    simp [evictDropped, evictFirst, hnil] at he

theorem checkinAptsEvict_hasRoom (h : Pooled ins) (he : checkinAptsEvict ins = some ins') :
    HasRoom ins ins' := by
  by_cases hpos : 0 < ins.mMaxCount.toNat
  · obtain ⟨ins₁, h1, hroom⟩ := checkinAptsEvict_room h hpos
    rw [he] at h1
    exact Option.some.inj h1 ▸ hroom
  · have hlen := h.length_add
    have hnil : ins.ptsList = [] := List.length_eq_zero_iff.mp (by omega)
    have hge : ins.mListSize ≥ ins.mMaxCount := by
      rw [ge_iff_le, UInt32.le_iff_toNat_le]
      omega
    unfold checkinAptsEvict at he
    rw [if_pos hge] at he
    simp [evictFirst, hnil] at he

theorem checkinPtsSize_head (h : Pooled ins) (hpts : req.pts ≠ 0)
    (hs : ptsserverCheckinPtsSize req isOffset ins = some (ins', r)) :
    ∃ ins₁ n rest, checkinEvict ins = some ins₁ ∧ HasRoom ins ins₁ ∧ ins₁.ptsFreeList = n :: rest ∧
      r = 0 ∧ ins' = checkinDone req isOffset
        ((linked req isOffset n (recordCheckin req isOffset ins₁)).nodes n).offset
        (linked req isOffset n (recordCheckin req isOffset ins₁)) := by
  unfold ptsserverCheckinPtsSize at hs
  simp only [bind, Option.bind_eq_some_iff] at hs
  obtain ⟨ins₁, he, hs⟩ := hs
  have hroom := checkinEvict_hasRoom h he
  obtain ⟨n, rest, hf⟩ := List.exists_cons_of_ne_nil hroom.room
  rw [if_neg hpts, checkinHead_eq ((recordCheckin_samePool req isOffset ins₁).pooled hroom.pooled) hf,
    Option.bind_some] at hs
  obtain ⟨hins, hr⟩ := Prod.mk.injEq .. ▸ Option.some.inj hs
  exact ⟨ins₁, n, rest, he, hroom, hf, hr.symm, hins.symm⟩

theorem checkinPtsSize_piece (hpts : req.pts = 0)
    (hs : ptsserverCheckinPtsSize req isOffset ins = some (ins', r)) :
    ∃ ins₁, checkinEvict ins = some ins₁ ∧
      ((ins₁.mListSize = 0 ∧ ins' = recordPiece req (recordCheckin req isOffset ins₁)) ∨
        (ins₁.mListSize ≠ 0 ∧ ∃ offset,
          ins' = checkinDone req isOffset offset (recordCheckin req isOffset ins₁))) := by
  unfold ptsserverCheckinPtsSize at hs
  simp only [bind, Option.bind_eq_some_iff] at hs
  obtain ⟨ins₁, he, hs⟩ := hs
  refine ⟨ins₁, he, ?_⟩
  rw [if_pos hpts] at hs
  split at hs
  · rename_i hsize
    split at hs
    · exact nomatch hs
    · exact .inr ⟨hsize, _, (congrArg Prod.fst (Option.some.inj hs) :).symm⟩
  · rename_i hsize
    exact .inl ⟨not_not.mp hsize, (congrArg Prod.fst (Option.some.inj hs) :).symm⟩

end

/-! ## The node of an audio check-in -/

/-- The instance after an audio check-in took `n`, the first free node. -/
def appended (req : CheckinAptsSize) (n : NodeId) (ins : PtsServerIns) : PtsServerIns :=
  { ins with
    nodes := Function.update ins.nodes n
      { ins.nodes n with offset := req.offset, pts90k := req.pts90k, pts64 := req.pts64 }
    ptsList := insertBefore (fun _ => false) n ins.ptsList
    ptsFreeList := ins.ptsFreeList.tail
    mListSize := ins.mListSize + 1 }

section

variable {ins ins' : PtsServerIns} {req : CheckinAptsSize} {n : NodeId} {rest : List NodeId}
  {r : Int}

theorem checkinAptsNode_eq (h : Pooled ins) (hf : ins.ptsFreeList = n :: rest) :
    checkinAptsNode req ins = some (appended req n ins, some n) := by
  obtain ⟨hdel, hl, hr⟩ := listDel_free h hf
  unfold checkinAptsNode
  rw [hf]
  dsimp only
  rw [hdel]
  simp only [bind, Option.bind_some]
  rw [listAddBefore_eq _ (by exact hl) (by exact hr), Option.bind_some]
  simp only [appended, PtsServerIns.setNode, hf, List.tail_cons]

/-- An audio check-in evicts, takes the first free node and records. -/
theorem checkinAptsSize_cases (h : Pooled ins)
    (hs : ptsserverCheckinAptsSize req ins = some (ins', r)) :
    ∃ ins₁ n rest, checkinAptsEvict ins = some ins₁ ∧ HasRoom ins ins₁ ∧
      ins₁.ptsFreeList = n :: rest ∧ ins' = checkinAptsDone req (appended req n ins₁) := by
  unfold ptsserverCheckinAptsSize at hs
  simp only [bind, Option.bind_eq_some_iff] at hs
  obtain ⟨ins₁, he, hs⟩ := hs
  have hroom := checkinAptsEvict_hasRoom h he
  obtain ⟨n, rest, hf⟩ := List.exists_cons_of_ne_nil hroom.room
  rw [checkinAptsNode_eq hroom.pooled hf] at hs
  obtain ⟨p, hp, hs⟩ := hs
  rw [← Option.some.inj hp] at hs
  exact ⟨ins₁, n, rest, he, hroom, hf, (congrArg Prod.fst (Option.some.inj hs) :).symm⟩

end

/-! ## Reachable instances -/

/-- Every call that is defined keeps the nodes split, also on an instance without nodes. -/
theorem step_some_pooled {ins ins' : PtsServerIns} {op : Op} (h : Pooled ins)
    (hs : step ins op = some ins') : Pooled ins' ∧ ins'.mMaxCount = ins.mMaxCount := by
  by_cases hpos : 0 < ins.mMaxCount
  · obtain ⟨ins₁, h1, hp⟩ := step_pooled ins.mMaxCount hpos ins op ⟨h, rfl⟩
    rw [hs] at h1
    exact Option.some.inj h1 ▸ hp
  have hcalled {β : Type} {o : Option (PtsServerIns × β)} (ho : o.map Prod.fst = some ins')
      (hp : ∃ i out, o = some (i, out) ∧ Pooled i ∧ i.mMaxCount = ins.mMaxCount) :
      Pooled ins' ∧ ins'.mMaxCount = ins.mMaxCount := by
    obtain ⟨i, out, rfl, hp⟩ := hp
    exact Option.some.inj ho ▸ hp
  have hsame (hp : SamePool ins ins') : Pooled ins' ∧ ins'.mMaxCount = ins.mMaxCount :=
    ⟨hp.pooled h, hp.count⟩
  have hnone {i : PtsServerIns} (hroom : HasRoom ins i) :
      Pooled ins' ∧ ins'.mMaxCount = ins.mMaxCount := by
    have hlen := hroom.pooled.length_add
    rw [hroom.count] at hlen
    have hfree := List.length_pos_iff.mpr hroom.room
    have hlt : (0 : UInt32).toNat < ins.mMaxCount.toNat := by
      show 0 < ins.mMaxCount.toNat
      omega
    exact absurd (UInt32.lt_iff_toNat_lt.mpr hlt) hpos
  cases op with
  | checkinPtsSize req isOffset =>
    obtain ⟨p, hp, -⟩ := Option.map_eq_some_iff.mp hs
    obtain ⟨ins₁, he, -⟩ := Option.bind_eq_some_iff.mp hp
    exact hnone (checkinEvict_hasRoom h he)
  | checkinAptsSize req =>
    obtain ⟨p, hp, -⟩ := Option.map_eq_some_iff.mp hs
    obtain ⟨ins₁, he, -⟩ := Option.bind_eq_some_iff.mp hp
    exact hnone (checkinAptsEvict_hasRoom h he)
  | checkoutPtsOffset req => exact hcalled hs (ptsserverCheckoutPtsOffset_pooled req h)
  | checkoutAptsOffset req => exact hcalled hs (ptsserverCheckoutAptsOffset_pooled req h)
  | peekPtsOffset req =>
    rw [← Option.some.inj hs]
    exact ⟨(ptsserverPeekPtsOffset_samePool req ins).pooled h,
      (ptsserverPeekPtsOffset_samePool req ins).count⟩
  | setMode | setTrickMode | setFirstCheckinOffset | setAudioOffsetMargin =>
    apply hsame
    rw [← Option.some.inj hs]
    exact ⟨rfl, rfl, rfl, rfl⟩
  | insReset =>
    obtain ⟨ins₁, h1, hp⟩ := ptsserverInsReset_pooled h
    have heq : ins₁ = ins' := Option.some.inj (h1.symm.trans hs)
    exact heq ▸ hp

/-- What is reached from a new instance has its nodes split between the lists. -/
theorem run_pooled {allocParm : AllocPara} {nodes : NodeId → PtsNode} {ins₀ ins : PtsServerIns}
    {ops : List Op}
    (hr : run step (ptsserverInsInitSyncinfo allocParm (some nodes) ins₀).1 ops = some ins) :
    Pooled ins :=
  run_invariant (fun _ _ _ h hs => (step_some_pooled h hs).1) (init_pooled allocParm nodes ins₀) hr

/-- A new instance with zeroed nodes. -/
def emptyInstance (mMaxCount : UInt32) : PtsServerIns :=
  (ptsserverInsInitSyncinfo ⟨mMaxCount, 2500, 5⟩ (some fun _ => ⟨0, 0, 0, 0, 0, 0⟩)
    (.zero fun _ => ⟨0, 0, 0, 0, 0, 0⟩)).1

end MediaModules.PtsServer
