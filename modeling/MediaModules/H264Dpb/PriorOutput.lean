import MediaModules.H264Dpb.Marks
import MediaModules.H264Dpb.Pool
import MediaModules.Lib.Tally

/-!
# No output of prior pictures

What the loop of `idr_memory_management` marks as output. It tests the store at a position of
`fs` and marks the store of that index, so it marks the right ones iff every store that waits
lies at its own index.
-/
namespace MediaModules.H264Dpb

/-! ## The loop on the output flags -/

namespace PriorOutput

/-- Output and pre-output flag of each frame store. -/
abbrev Flags := Nat → Bool × Bool

def waits (o : Flags) (i : Nat) : Bool := !(o i).1 && !(o i).2

/-- One turn: the store `i` is tested, the store `pos` is marked. -/
def turn (o : Flags) (i pos : Nat) : Flags :=
  if waits o i then fun j => if j = pos then (true, false) else o j else o

/-- The flags after the first `n` turns. -/
def after (xs : List Nat) (o : Flags) (n : Nat) : Flags :=
  (xs.zipIdx.take n).foldl (fun o r => turn o r.1 r.2) o

variable {xs : List Nat} {o : Flags}

/-- The turn at a position finds its store waiting. -/
def Marks (xs : List Nat) (o : Flags) (pos : Nat) : Prop :=
  ∃ i, xs[pos]? = some i ∧ waits (after xs o pos) i = true

theorem after_succ {n i : Nat} (h : xs[n]? = some i) :
    after xs o (n + 1) = turn (after xs o n) i n := by
  have hn : xs.zipIdx[n]? = some (i, n) := by
    rw [List.getElem?_zipIdx, h, Option.map_some, Nat.zero_add]
  unfold after
  rw [List.take_add_one, hn, List.foldl_append]
  rfl

theorem after_of_le {n : Nat} (h : xs.length ≤ n) : after xs o n = after xs o xs.length := by
  unfold after
  rw [List.take_of_length_le (by rw [List.length_zipIdx]; exact h),
    List.take_of_length_le (by rw [List.length_zipIdx])]

/-- One turn more counts iff it marks. -/
theorem lt_succ_marks {n j : Nat} :
    j < n + 1 ∧ Marks xs o j ↔ (j < n ∧ Marks xs o j) ∨ (j = n ∧ Marks xs o n) := by
  constructor
  · rintro ⟨hlt, hm⟩
    rcases Nat.lt_succ_iff_lt_or_eq.mp hlt with hlt | heq
    · exact Or.inl ⟨hlt, hm⟩
    · exact Or.inr ⟨heq, heq ▸ hm⟩
  · rintro (⟨hlt, hm⟩ | ⟨rfl, hm⟩)
    · exact ⟨Nat.lt_succ_of_lt hlt, hm⟩
    · exact ⟨Nat.lt_succ_self j, hm⟩

/-- A turn marks the store of its own position, or changes nothing. -/
theorem after_succ_eq (n : Nat) :
    (Marks xs o n → after xs o (n + 1) = fun j => if j = n then (true, false) else after xs o n j) ∧
      (¬ Marks xs o n → after xs o (n + 1) = after xs o n) := by
  cases hn : xs[n]? with
  | none =>
    have hlen := List.getElem?_eq_none_iff.mp hn
    refine ⟨fun ⟨i, hi, _⟩ => ?_, fun _ => ?_⟩
    · rw [hn] at hi
      exact absurd hi nofun
    · rw [after_of_le hlen, after_of_le (Nat.le_succ_of_le hlen)]
  | some i =>
    rw [after_succ hn]
    unfold turn
    refine ⟨fun ⟨i', hi, hw⟩ => ?_, fun hm => ?_⟩
    · rw [hn] at hi
      rw [Option.some.inj hi, if_pos hw]
    · exact if_neg fun hw => hm ⟨i, hn, hw⟩

/-- After some turns the stores whose own position marked are output, the others as before. -/
theorem after_eq (n j : Nat) :
    (j < n ∧ Marks xs o j → after xs o n j = (true, false)) ∧
      (¬ (j < n ∧ Marks xs o j) → after xs o n j = o j) := by
  induction n with
  | zero => exact ⟨fun h => absurd h.1 (Nat.not_lt_zero j), fun _ => rfl⟩
  | succ n ih =>
    obtain ⟨h1, h2⟩ := @after_succ_eq xs o n
    rw [lt_succ_marks]
    by_cases hm : Marks xs o n
    · rw [h1 hm]
      by_cases hj : j = n
      · refine ⟨fun _ => if_pos hj, fun hn => absurd (Or.inr ⟨hj, hm⟩) hn⟩
      · dsimp only
        rw [if_neg hj]
        refine ⟨fun h => ih.1 (h.resolve_right fun h' => hj h'.1), fun h => ih.2 fun h' => h (Or.inl h')⟩
    · rw [h2 hm]
      exact ⟨fun h => ih.1 (h.resolve_right fun h' => hm h'.2), fun h => ih.2 fun h' => h (Or.inl h')⟩

/-- A store that waits after some turns has waited all along, and its own position has not marked
among them. -/
theorem waits_after {n i : Nat} (h : waits (after xs o n) i = true) :
    waits o i = true ∧ ¬ (i < n ∧ Marks xs o i) := by
  have hnot : ¬ (i < n ∧ Marks xs o i) := fun hm => by
    unfold waits at h
    rw [(after_eq n i).1 hm] at h
    exact absurd h (by decide)
  unfold waits at h ⊢
  rw [(after_eq n i).2 hnot] at h
  exact ⟨h, hnot⟩

/-- The stores the loop is to mark. -/
def Waiting (xs : List Nat) (o : Flags) (i : Nat) : Prop := i ∈ xs ∧ waits o i = true

theorem waiting_of_marks {pos : Nat} (h : Marks xs o pos) :
    ∃ i, xs[pos]? = some i ∧ Waiting xs o i ∧ ¬ (i < pos ∧ Marks xs o i) := by
  obtain ⟨i, hi, hw⟩ := h
  obtain ⟨h1, h2⟩ := waits_after hw
  exact ⟨i, hi, ⟨List.mem_of_getElem? hi, h1⟩, h2⟩

theorem marks_lt {pos : Nat} (h : Marks xs o pos) : pos < xs.length := by
  obtain ⟨i, hi, -⟩ := h
  exact (List.getElem?_eq_some_iff.mp hi).1

/-- The loop has marked the stores it was to mark, and changed no other. -/
structure MarksWaiting (xs : List Nat) (o o' : Flags) : Prop where
  waiting : ∀ i, Waiting xs o i → (o' i).1 = true
  others : ∀ i, ¬ Waiting xs o i → o' i = o i

/-- When each waiting store lies at its own index, its own position marks it. -/
theorem marks_iff_waiting (hpos : ∀ pos i, xs[pos]? = some i → waits o i = true → pos = i)
    (j : Nat) : Marks xs o j ↔ Waiting xs o j := by
  constructor
  · intro h
    obtain ⟨i, hi, hw, -⟩ := waiting_of_marks h
    exact hpos j i hi hw.2 ▸ hw
  · rintro ⟨hmem, hw⟩
    obtain ⟨pos, hget⟩ := List.mem_iff_getElem?.mp hmem
    have heq := hpos pos j hget hw
    rw [heq] at hget
    refine ⟨j, hget, ?_⟩
    have hbefore := (@after_eq xs o j j).2 fun h => Nat.lt_irrefl j h.1
    unfold waits at hw ⊢
    rw [hbefore]
    exact hw

/-- If the loop marks the stores that wait, none of them can lie elsewhere: the position of each
marks it, the store tested there waits as well and lies no lower, so no store has moved. -/
theorem position_eq (hnd : xs.Nodup) (hall : ∀ i, Waiting xs o i → Marks xs o i) :
    ∀ pos i, xs[pos]? = some i → waits o i = true → pos = i := by
  have hstep : ∀ i, Waiting xs o i → ∃ j, xs[i]? = some j ∧ Waiting xs o j ∧ i ≤ j := by
    intro i hi
    obtain ⟨j, hj, hw, hnot⟩ := waiting_of_marks (hall i hi)
    exact ⟨j, hj, hw, Nat.le_of_not_lt fun hlt => hnot ⟨hlt, hall j hw⟩⟩
  let g (i : Nat) : Nat := (xs[i]?).getD 0
  let ws := xs.filter (waits o)
  have hws : ∀ i, i ∈ ws ↔ Waiting xs o i := fun i => List.mem_filter
  have hwnd : ws.Nodup := hnd.filter _
  have hg : ∀ i ∈ ws, xs[i]? = some (g i) ∧ g i ∈ ws ∧ i ≤ g i := by
    intro i hi
    obtain ⟨j, hj, hw, hle⟩ := hstep i ((hws i).mp hi)
    have hgi : g i = j := by
      show (xs[i]?).getD 0 = j
      rw [hj]
      rfl
    rw [hgi]
    exact ⟨hj, (hws j).mpr hw, hle⟩
  have hinj : ∀ i ∈ ws, ∀ j ∈ ws, g i = g j → i = j := by
    intro i hi j hj hij
    have h1 := (hg i hi).1
    rw [hij, ← (hg j hj).1] at h1
    exact (List.getElem?_inj (List.getElem?_eq_some_iff.mp (hg i hi).1).1 hnd).mp h1
  have hmap : (ws.map g).Nodup := List.Nodup.map_on (fun i hi j hj => hinj i hi j hj) hwnd
  have hperm : (ws.map g).Perm ws := by
    refine (List.subperm_of_subset hmap fun j hj => ?_).perm_of_length_le
      (by rw [List.length_map])
    obtain ⟨i, hi, rfl⟩ := List.mem_map.mp hj
    exact (hg i hi).2.1
  have hfix := Lib.Tally.eq_of_perm_of_le hperm fun i hi => (hg i hi).2.2
  intro pos i hpos hw
  have hi : i ∈ ws := (hws i).mpr ⟨List.mem_of_getElem? hpos, hw⟩
  have hat := (hg i hi).1
  rw [hfix i hi, ← hpos] at hat
  exact ((List.getElem?_inj (List.getElem?_eq_some_iff.mp (hat.trans hpos)).1 hnd).mp hat).symm

/-- The loop marks the stores that wait iff each of them lies at its own index. -/
theorem marksWaiting_iff (hnd : xs.Nodup) :
    MarksWaiting xs o (after xs o xs.length) ↔
      ∀ pos i, xs[pos]? = some i → waits o i = true → pos = i := by
  have hend : ∀ j, j < xs.length ∧ Marks xs o j ↔ Marks xs o j :=
    fun j => and_iff_right_of_imp marks_lt
  constructor
  · intro h
    apply position_eq hnd
    intro i hi
    by_contra hnot
    have hsame := (@after_eq xs o xs.length i).2 fun hm => hnot hm.2
    have hout := h.waiting i hi
    rw [hsame] at hout
    have hw := hi.2
    unfold waits at hw
    rw [hout] at hw
    exact absurd hw (by simp)
  · intro h
    refine ⟨fun i hi => ?_, fun i hi => ?_⟩
    · rw [(after_eq xs.length i).1 ((hend i).mpr ((marks_iff_waiting h i).mpr hi))]
    · exact (after_eq xs.length i).2 fun hm => hi ((marks_iff_waiting h i).mp hm.2)

end PriorOutput

/-! ## The loop of the code -/

namespace Dpb

variable {s t : Dpb}

/-- The output flags of the frame stores. -/
def flags (s : Dpb) : PriorOutput.Flags := fun i => ((s.stores i).isOutput, (s.stores i).preOutput)

theorem flags_of_unmarked (h : t.unmarked = s.unmarked) : t.flags = s.flags :=
  show t.unmarked.flags = s.unmarked.flags from congrArg flags h

theorem flags_setFrameOutputFlag (s : Dpb) (pos : Nat) :
    (s.setFrameOutputFlag pos).flags = fun j => if j = pos then (true, false) else s.flags j := by
  funext j
  show (((s.setFrameOutputFlag pos).stores j).isOutput, ((s.setFrameOutputFlag pos).stores j).preOutput) = _
  unfold setFrameOutputFlag
  rw [modifyStore_stores]
  split <;> rfl

/-- The marking half of a turn. -/
theorem unmarked_noOutputMarks (s : Dpb) (i : Nat) :
    (if ((s.unmarkForReference i).stores i).isLongTerm ≠ .empty then
      (s.unmarkForReference i).unmarkForLongTermReference i else s.unmarkForReference i).unmarked =
      s.unmarked := by
  rw [unmarked_unmarkLong_if, unmarked_unmarkForReference]

theorem flags_noOutputTurn (s : Dpb) (i pos : Nat) :
    (s.noOutputTurn i pos).flags = PriorOutput.turn s.flags i pos := by
  have hmark := flags_of_unmarked (unmarked_noOutputMarks s i)
  unfold noOutputTurn
  dsimp only
  generalize (if ((s.unmarkForReference i).stores i).isLongTerm ≠ .empty then
    (s.unmarkForReference i).unmarkForLongTermReference i else s.unmarkForReference i) = u at hmark
  have hwait : u.waiting i = PriorOutput.waits s.flags i := by
    rw [← hmark]
    rfl
  rw [apply_ite flags, flags_setFrameOutputFlag, hmark, hwait]
  rfl

theorem flags_noOutputOfPriorPics (s : Dpb) :
    s.noOutputOfPriorPics.flags = PriorOutput.after s.used s.flags s.used.length := by
  have hloop (rs : List (Nat × Nat)) (s : Dpb) :
      (rs.foldl (fun s r => s.noOutputTurn r.1 r.2) s).flags =
        rs.foldl (fun o r => PriorOutput.turn o r.1 r.2) s.flags := by
    induction rs generalizing s with
    | nil => rfl
    | cons r rs ih => rw [List.foldl_cons, List.foldl_cons, ih, flags_noOutputTurn]
  unfold noOutputOfPriorPics PriorOutput.after
  rw [hloop, List.take_of_length_le (by rw [List.length_zipIdx])]

theorem unmarks_noOutputTurn (s : Dpb) (i pos : Nat) : s.Unmarks (s.noOutputTurn i pos) ∧
    (s.noOutputTurn i pos).isUsedForReference i = false := by
  have h1 := unmarks_unmarkForReference s i
  have h2 : (s.unmarkForReference i).Unmarks
      (if ((s.unmarkForReference i).stores i).isLongTerm ≠ .empty then
        (s.unmarkForReference i).unmarkForLongTermReference i else s.unmarkForReference i) :=
    .ite (unmarks_unmarkForLongTermReference _ i) (.refl _)
  have h3 (u : Dpb) : u.Unmarks (if u.waiting i then u.setFrameOutputFlag pos else u) := by
    refine .ite (.modifyStore u ?_ pos) (.refl u)
    exact ⟨fun _ => rfl, fun _ => .refl _, fun _ => .refl _, fun _ => rfl⟩
  exact ⟨(h1.trans h2).trans (h3 _),
    (h2.trans (h3 _)).isUsedForReference (unmarkForReference_clears s i)⟩

/-- The loop leaves no store in use with a reference. -/
theorem noOutputOfPriorPics_unreferenced (s : Dpb) :
    ∀ i ∈ s.used, s.noOutputOfPriorPics.isUsedForReference i = false := by
  have hloop (rs : List (Nat × Nat)) (s : Dpb) : ∀ r ∈ rs,
      (rs.foldl (fun s r => s.noOutputTurn r.1 r.2) s).isUsedForReference r.1 = false := by
    induction rs generalizing s with
    | nil => exact nofun
    | cons r rs ih =>
      intro r' hr'
      rw [List.foldl_cons]
      rcases List.mem_cons.mp hr' with rfl | hr'
      · have hrest := Unmarks.foldl (f := fun (s : Dpb) (r : Nat × Nat) => s.noOutputTurn r.1 r.2)
          (fun s r => (unmarks_noOutputTurn s r.1 r.2).1) rs (s.noOutputTurn r'.1 r'.2)
        exact hrest.isUsedForReference (unmarks_noOutputTurn s r'.1 r'.2).2
      · exact ih _ r' hr'
  intro i hi
  obtain ⟨pos, hpos⟩ := List.mem_iff_getElem?.mp hi
  have hmem : (i, pos) ∈ s.used.zipIdx := by
    refine List.mem_iff_getElem?.mpr ⟨pos, ?_⟩
    rw [List.getElem?_zipIdx, hpos, Option.map_some, Nat.zero_add]
  exact hloop s.used.zipIdx s (i, pos) hmem

theorem isUsedForReference_congr
    (hpics : ∀ q, (t.pics q).usedForReference = (s.pics q).usedForReference)
    (hstores : t.stores = s.stores) (i : Nat) :
    t.isUsedForReference i = s.isUsedForReference i := by
  have hpic (p : Option Nat) : (t.pic p).usedForReference = (s.pic p).usedForReference := by
    cases p with
    | none => rfl
    | some p => exact hpics p
  unfold isUsedForReference holds
  rw [hstores]
  simp only [hpic]

theorem markIdrPicture_pics (s : Dpb) (p q : Nat) :
    ((s.markIdrPicture p).pics q).usedForReference = (s.pics q).usedForReference := by
  unfold markIdrPicture
  split
  · exact modifyPic_read (f := fun q => { q with isLongTerm := true, longTermFrameIdx := 0 })
      { s with maxLongTermPicIdx := 0 } StorablePicture.usedForReference (fun _ => rfl) (some p) q
  · exact modifyPic_read (f := fun q => { q with isLongTerm := false })
      { s with maxLongTermPicIdx := -1 } StorablePicture.usedForReference (fun _ => rfl) (some p) q

theorem markIdrPicture_stores (s : Dpb) (p : Nat) : (s.markIdrPicture p).stores = s.stores := by
  unfold markIdrPicture
  split <;> rfl

/-- What an IDR picture with `no_output_of_prior_pics_flag` is to do: of the stores in use those
that wait become output, none is a reference, and no other store is touched. -/
structure PriorPicsDropped (s t : Dpb) : Prop where
  marked : ∀ i ∈ s.used, s.waiting i = true → (t.stores i).isOutput = true
  unreferenced : ∀ i ∈ s.used, t.isUsedForReference i = false
  others : ∀ i, ¬ (i ∈ s.used ∧ s.waiting i = true) →
    (t.stores i).isOutput = (s.stores i).isOutput ∧ (t.stores i).preOutput = (s.stores i).preOutput

theorem priorPicsDropped_of_flags (hf : t.flags = s.noOutputOfPriorPics.flags)
    (hu : ∀ i, t.isUsedForReference i = s.noOutputOfPriorPics.isUsedForReference i) :
    s.PriorPicsDropped t ↔ PriorOutput.MarksWaiting s.used s.flags
      (PriorOutput.after s.used s.flags s.used.length) := by
  rw [flags_noOutputOfPriorPics] at hf
  rw [← hf]
  constructor
  · intro h
    exact ⟨fun i hi => h.marked i hi.1 hi.2, fun i hi => Prod.ext (h.others i hi).1 (h.others i hi).2⟩
  · intro h
    refine ⟨fun i hi hw => h.waiting i ⟨hi, hw⟩, fun i hi => ?_, fun i hi => ?_⟩
    · rw [hu, noOutputOfPriorPics_unreferenced s i hi]
    · have hsame := h.others i hi
      exact ⟨congrArg Prod.fst hsame, congrArg Prod.snd hsame⟩

/-- In a reachable buffer the prior pictures are dropped as they should iff every store that waits
lies at its own index. -/
theorem prior_pics_dropped_iff (s : Dpb) (p : Nat) (h : Reachable s)
    (hp : (s.pics p).noOutputOfPriorPicsFlag = true) :
    s.PriorPicsDropped (s.idrMemoryManagement p) ↔
      ∀ pos i, s.used[pos]? = some i → s.waiting i = true → pos = i := by
  obtain ⟨d, hpool⟩ := pooled_reachable h
  have hnd : s.used.Nodup := hpool.buffered.fs_nodup.sublist (List.take_sublist _ _)
  have hdrop : s.dropPriorPics p = s.noOutputOfPriorPics := if_pos hp
  have hstores : (s.idrMemoryManagement p).stores = s.noOutputOfPriorPics.stores := by
    unfold idrMemoryManagement
    dsimp only
    rw [markIdrPicture_stores, hdrop]
    rfl
  have hpics (q : Nat) : ((s.idrMemoryManagement p).pics q).usedForReference =
      (s.noOutputOfPriorPics.pics q).usedForReference := by
    unfold idrMemoryManagement
    dsimp only
    rw [markIdrPicture_pics, hdrop]
    rfl
  have hflags : (s.idrMemoryManagement p).flags = s.noOutputOfPriorPics.flags := by
    unfold flags
    rw [hstores]
  rw [priorPicsDropped_of_flags hflags (isUsedForReference_congr hpics hstores)]
  exact PriorOutput.marksWaiting_iff hnd

/-- A frame, handed to the display at once. -/
def shownFrame (frameNum : Int) : List Op :=
  [.slice { frameNum := frameNum } true, .store 0 [{}]]

/-- An IDR picture that wants no prior picture displayed. -/
def idrWithoutPrior : Op :=
  .slice { idrFlag := true, nalReferenceIdc := 1, mmcoCmd := [2] } true

/-- A frame that waits at its own index. -/
theorem prior_pics_dropped_first : ∃ s, Lib.Run.run step (initial 3 {} {} .idle)
      [.slice {} true, .store 0 [], idrWithoutPrior] = some s ∧
    s.mVideo.decPicture = some 4 ∧ s.used = [0] ∧ s.waiting 0 = true ∧
    s.PriorPicsDropped (s.idrMemoryManagement 4) := by
  obtain ⟨s, hs⟩ := Option.isSome_iff_exists.mp
    (by decide +kernel : (Lib.Run.run step (initial 3 {} {} .idle)
      [.slice {} true, .store 0 [], idrWithoutPrior]).isSome = true)
  have hreach : Reachable s := ⟨3, {}, {}, .idle, by decide, _, hs⟩
  have hflag : (s.pics 4).noOutputOfPriorPicsFlag = true :=
    Lib.Run.read_of_run (fun s => (s.pics 4).noOutputOfPriorPicsFlag) (by decide +kernel) hs
  have hused : s.used = [0] := Lib.Run.read_of_run used (by decide +kernel) hs
  refine ⟨s, hs, Lib.Run.read_of_run (fun s => s.mVideo.decPicture) (by decide +kernel) hs, hused,
    Lib.Run.read_of_run (fun s => s.waiting 0) (by decide +kernel) hs,
    (prior_pics_dropped_iff s 4 hreach hflag).mpr fun pos i hpos _ => ?_⟩
  rw [hused] at hpos
  cases pos with
  | zero => exact Option.some.inj hpos
  | succ pos => exact absurd hpos (by simp)

/-- The first of two frames is displayed and removed; the other one waits in its place and is not
marked. -/
theorem prior_pic_not_dropped : ∃ s, Lib.Run.run step (initial 3 {} {} .idle)
      (shownFrame 0 ++ [.slice {} true, .store 0 [], .setFrameOutputFlag 0, .removeUnused,
        idrWithoutPrior]) = some s ∧
    (s.pics 1).noOutputOfPriorPicsFlag = true ∧ s.used = [1] ∧ s.waiting 1 = true ∧
    ((s.idrMemoryManagement 1).stores 1).isOutput = false ∧
    ¬ s.PriorPicsDropped (s.idrMemoryManagement 1) := by
  obtain ⟨s, hs⟩ := Option.isSome_iff_exists.mp
    (by decide +kernel : (Lib.Run.run step (initial 3 {} {} .idle)
      (shownFrame 0 ++ [.slice {} true, .store 0 [], .setFrameOutputFlag 0, .removeUnused,
        idrWithoutPrior])).isSome = true)
  have hused : s.used = [1] := Lib.Run.read_of_run used (by decide +kernel) hs
  have hwait : s.waiting 1 = true :=
    Lib.Run.read_of_run (fun s => s.waiting 1) (by decide +kernel) hs
  have hout : ((s.idrMemoryManagement 1).stores 1).isOutput = false :=
    Lib.Run.read_of_run (fun s => ((s.idrMemoryManagement 1).stores 1).isOutput)
      (by decide +kernel) hs
  refine ⟨s, hs, Lib.Run.read_of_run (fun s => (s.pics 1).noOutputOfPriorPicsFlag)
    (by decide +kernel) hs, hused, hwait, hout, fun h => ?_⟩
  have hmarked := h.marked 1 (hused ▸ List.mem_singleton.mpr rfl) hwait
  rw [hout] at hmarked
  exact absurd hmarked (by decide)

end Dpb

end MediaModules.H264Dpb
