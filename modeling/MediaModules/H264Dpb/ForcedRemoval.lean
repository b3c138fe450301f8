import MediaModules.H264Dpb.Untouched

/-!
# Making room by force

When no used frame store is both displayed and unreferenced, `bufmgr_h264_remove_unused_frame` takes
the reference marks from a displayed one. With force flag 1 it stops at the first displayed store
with an error; with force flag 2 the loop goes on and takes the marks from every displayed store.
-/
namespace MediaModules.H264Dpb.Dpb

open MediaModules.H264Dpb

variable {s t : Dpb} {d : Option Nat}

/-- The frame store was displayed. -/
def displayed (s : Dpb) (i : Nat) : Bool := (s.stores i).isOutput

/-- The frame store was displayed and has an error. -/
def displayedError (s : Dpb) (i : Nat) : Bool :=
  (s.stores i).isOutput &&
    (hasFlag (s.stores i).dataFlag ERROR_FLAG || hasFlag (s.stores i).dataFlag NULL_FLAG)

/-- The one frame store `bufmgr_h264_remove_unused_frame` is to take the marks from. -/
def forcedStore (s : Dpb) (forceFlag : Nat) : Option Nat :=
  if forceFlag = 2 then s.used.find? s.displayed else s.used.find? s.displayedError

/-- Every other used store keeps its marks and stays in the buffer. -/
def SparesOthers (s t : Dpb) (one : Option Nat) : Prop :=
  ∀ j ∈ s.used, one ≠ some j → j ∈ t.used ∧ s.Untouched t j

theorem SparesOthers.refl (s : Dpb) (one : Option Nat) : s.SparesOthers s one :=
  fun j hj _ => ⟨hj, .refl s j⟩

/-! ## Unmarking and removing -/

theorem used_unmarkForReference (s : Dpb) (i : Nat) : (s.unmarkForReference i).used = s.used :=
  used_of_unmarked (unmarked_unmarkForReference s i)

theorem displayed_unmarkForReference (s : Dpb) (i j : Nat) :
    (s.unmarkForReference i).displayed j = s.displayed j := by
  have hstore := congrArg (fun u : Dpb => (u.stores j).isOutput) (unmarked_unmarkForReference s i)
  exact hstore

theorem pooled_unmarkForReference (h : s.frames.Pooled d) (i : Nat) :
    (s.unmarkForReference i).frames.Pooled d := by
  rw [frames_of_unmarked (unmarked_unmarkForReference s i)]
  exact h

/-- A removal spares the others when only the one store is displayed and unreferenced. -/
theorem removeUnused_spares (h : s.frames.Pooled d) {one : Option Nat}
    (hone : ∀ j ∈ s.used, s.displayed j = true → s.isUsedForReference j = false → one = some j) :
    s.SparesOthers s.removeUnusedFrameFromDpb.2 one := by
  unfold removeUnusedFrameFromDpb
  split
  · next pos hpos =>
    obtain ⟨i, hi, hout, href⟩ := used_of_unusedPos hpos
    have hione := hone i (List.mem_of_getElem? hi) hout href
    intro j hj hne
    have hji : j ≠ i := fun hji => hne (hji ▸ hione)
    exact ⟨(mem_used_remove h.buffered hi).mpr ⟨hj, hji⟩, removeFrame_untouched h hi hj hji⟩
  · exact .refl s one

/-- Without a store to remove the displayed ones are all used for reference. -/
theorem referenced_of_unusedPos (hnone : s.unusedPos = none) {j : Nat} (hj : j ∈ s.used)
    (hout : s.displayed j = true) : s.isUsedForReference j = true := by
  have hall := List.findIdx?_eq_none_iff.mp hnone j hj
  have hout : (s.stores j).isOutput = true := hout
  rw [hout] at hall
  simpa using hall

theorem removeAllUnused_none (hnone : s.unusedPos = none) : s.removeAllUnused = (false, s) := by
  unfold removeAllUnused removeUnusedLoop removeUnusedFrameFromDpb
  rw [hnone]
  rfl

theorem unmark_remove_spares (h : s.frames.Pooled d) (hnone : s.unusedPos = none) (i : Nat) :
    s.SparesOthers (s.unmarkForReference i).updateRefList.removeUnusedFrameFromDpb.2 (some i) := by
  have hother {j : Nat} (hj : j ∈ s.used) (hne : j ≠ i) := unmark_refreshed_untouched h hj hne
  have hused : (s.unmarkForReference i).updateRefList.used = s.used := used_unmarkForReference s i
  have hremove : (s.unmarkForReference i).updateRefList.SparesOthers
      (s.unmarkForReference i).updateRefList.removeUnusedFrameFromDpb.2 (some i) := by
    have hpool : (s.unmarkForReference i).updateRefList.frames.Pooled d :=
      pooled_unmarkForReference h i
    apply removeUnused_spares hpool
    intro j hj hout href
    have hj : j ∈ s.used := hused ▸ hj
    by_contra hne
    have hji : j ≠ i := fun hji => hne (congrArg some hji.symm)
    rw [(hother hj hji).isUsedForReference,
      referenced_of_unusedPos hnone hj ((displayed_unmarkForReference s i j).symm.trans hout)] at href
    exact absurd href (by decide)
  intro j hj hne
  obtain ⟨hkept, hsame⟩ := hremove j (hused ▸ hj) hne
  exact ⟨hkept, (hother hj fun hji => hne (congrArg some hji.symm)).trans hsame⟩

/-! ## The two loops -/

/-- `unmark_one_out_frame` takes the marks from all displayed stores. -/
theorem unmarkOneOutFrame_eq (s : Dpb) : s.unmarkOneOutFrame =
    (s.used.any s.displayed, (s.used.filter s.displayed).foldl unmarkForReference s) := by
  have hloop (xs : List Nat) (r : Bool × Dpb) (hr : ∀ j, r.2.displayed j = s.displayed j) :
      xs.foldl (fun r i =>
        if (r.2.stores i).isOutput then (true, r.2.unmarkForReference i) else r) r =
      (r.1 || xs.any s.displayed, (xs.filter s.displayed).foldl unmarkForReference r.2) := by
    induction xs generalizing r with
    | nil => simp
    | cons i rest ih =>
      have hi : (r.2.stores i).isOutput = s.displayed i := hr i
      rw [List.foldl_cons, hi]
      cases hout : s.displayed i with
      | true =>
        rw [if_pos rfl, ih _ fun j => (displayed_unmarkForReference r.2 i j).trans (hr j)]
        simp [hout]
      | false =>
        rw [if_neg Bool.false_ne_true, ih r hr]
        simp [hout]
  exact hloop s.used (false, s) fun _ => rfl

/-- The unmarked stores are no longer used for reference. -/
theorem unmarkAll_clears {xs : List Nat} {j : Nat} (hj : j ∈ xs) (s : Dpb) :
    (xs.foldl unmarkForReference s).isUsedForReference j = false := by
  induction xs generalizing s with
  | nil => exact absurd hj List.not_mem_nil
  | cons i rest ih =>
    rw [List.foldl_cons]
    by_cases hji : j = i
    · subst hji
      exact (Unmarks.foldl unmarks_unmarkForReference rest _).isUsedForReference
        (unmarkForReference_clears s j)
    · exact ih ((List.mem_cons.mp hj).resolve_left hji) _

/-- A store that stays in the buffer is as before the removal. -/
theorem removeUnused_untouched (h : s.frames.Pooled d) {j : Nat} (hj : j ∈ s.used)
    (hkept : j ∈ s.removeUnusedFrameFromDpb.2.used) :
    s.Untouched s.removeUnusedFrameFromDpb.2 j := by
  unfold removeUnusedFrameFromDpb at hkept ⊢
  split
  · next pos hpos =>
    rw [hpos] at hkept
    obtain ⟨i, hi, -, -⟩ := used_of_unusedPos hpos
    exact removeFrame_untouched h hi hj ((mem_used_remove h.buffered hi).mp hkept).2
  · exact .refl s j

/-- The store behind the first displayed one loses its marks with it. -/
theorem second_displayed_unmarked (h : s.frames.Pooled d) (hnone : s.unusedPos = none)
    {i j : Nat} {rest : List Nat} (hout : s.used.filter s.displayed = i :: j :: rest) :
    ¬ s.SparesOthers ((i :: j :: rest).foldl unmarkForReference
      s).updateRefList.removeUnusedFrameFromDpb.2 (some i) := by
  have hj : j ∈ s.used.filter s.displayed := by
    rw [hout]
    exact List.mem_cons_of_mem i List.mem_cons_self
  obtain ⟨hj, hdisp⟩ := List.mem_filter.mp hj
  have hne : some i ≠ some j := by
    have hnd : (s.used.filter s.displayed).Nodup :=
      (h.buffered.fs_nodup.sublist (List.take_sublist _ _)).filter _
    rw [hout] at hnd
    exact fun hij => (List.nodup_cons.mp hnd).1 (Option.some.inj hij ▸ List.mem_cons_self)
  intro hspares
  obtain ⟨hkept, hsame⟩ := hspares j hj hne
  have hun : ((i :: j :: rest).foldl unmarkForReference s).unmarked = s.unmarked :=
    foldl_read unmarked (fun s i => unmarked_unmarkForReference s i) _ s
  have hpool : ((i :: j :: rest).foldl unmarkForReference s).updateRefList.frames.Pooled d := by
    show ((i :: j :: rest).foldl unmarkForReference s).frames.Pooled d
    rw [frames_of_unmarked hun]
    exact h
  have hused : ((i :: j :: rest).foldl unmarkForReference s).updateRefList.used = s.used :=
    used_of_unmarked hun
  have hclear : ((i :: j :: rest).foldl unmarkForReference s).updateRefList.isUsedForReference j =
      false := unmarkAll_clears (List.mem_cons_of_mem i List.mem_cons_self) s
  rw [← (removeUnused_untouched hpool (hused ▸ hj) hkept).isUsedForReference,
    hsame.isUsedForReference, referenced_of_unusedPos hnone hj hdisp] at hclear
  exact absurd hclear (by decide)

/-! ## What force takes -/

/-- With force flag 1 at most one displayed store with an error is unmarked. -/
theorem forced_error (hnone : s.unusedPos = none) : s.bufmgrH264RemoveUnusedFrame 1 =
    match s.used.find? s.displayedError with
    | some i => (s.unmarkForReference i).updateRefList.removeUnusedFrameFromDpb.2
    | none => s := by
  have hone : s.unmarkOneErrorOutFrame = match s.used.find? s.displayedError with
    | some i => (true, s.unmarkForReference i)
    | none => (false, s) := rfl
  unfold bufmgrH264RemoveUnusedFrame
  rw [removeAllUnused_none hnone]
  show (if s.unmarkOneErrorOutFrame.1 = true then _ else s.unmarkOneErrorOutFrame.2) = _
  rw [hone]
  cases s.used.find? s.displayedError with
  | none => rfl
  | some i => rfl

theorem forced_displayed (hnone : s.unusedPos = none) : s.bufmgrH264RemoveUnusedFrame 2 =
    if s.used.filter s.displayed = [] then s
    else ((s.used.filter s.displayed).foldl unmarkForReference
      s).updateRefList.removeUnusedFrameFromDpb.2 := by
  unfold bufmgrH264RemoveUnusedFrame
  rw [removeAllUnused_none hnone]
  show (if s.unmarkOneOutFrame.1 = true then _ else s.unmarkOneOutFrame.2) = _
  rw [unmarkOneOutFrame_eq]
  have hany : s.used.any s.displayed = true ↔ ¬ s.used.filter s.displayed = [] := by
    rw [List.any_eq_true, List.filter_eq_nil_iff]
    push Not
    rfl
  split
  · next hsome => rw [if_neg (hany.mp hsome)]
  · next hnil =>
    have hnil := not_not.mp (mt hany.mpr hnil)
    rw [if_pos hnil, hnil]
    rfl

/-- With no frame store both displayed and unreferenced, all but the one store are spared with force
flag 1, and with force flag 2 exactly when at most one store was displayed. -/
theorem forced_removal_spares_iff (h : s.frames.Pooled d) (hnone : s.unusedPos = none)
    {forceFlag : Nat} (hforce : forceFlag = 1 ∨ forceFlag = 2) :
    s.SparesOthers (s.bufmgrH264RemoveUnusedFrame forceFlag) (s.forcedStore forceFlag) ↔
      (forceFlag = 2 → s.used.countP s.displayed ≤ 1) := by
  rcases hforce with rfl | rfl
  · refine iff_of_true ?_ nofun
    rw [forced_error hnone]
    show s.SparesOthers _ (s.used.find? s.displayedError)
    cases s.used.find? s.displayedError with
    | none => exact .refl s none
    | some i => exact unmark_remove_spares h hnone i
  · rw [forced_displayed hnone, List.countP_eq_length_filter]
    show s.SparesOthers _ (s.used.find? s.displayed) ↔ _
    rw [← List.head?_filter]
    cases hout : s.used.filter s.displayed with
    | nil => exact iff_of_true (.refl s none) fun _ => Nat.zero_le 1
    | cons i rest =>
      rw [if_neg (List.cons_ne_nil i rest)]
      cases rest with
      | nil => exact iff_of_true (unmark_remove_spares h hnone i) fun _ => Nat.le_refl 1
      | cons j rest =>
        apply iff_of_false (second_displayed_unmarked h hnone hout)
        intro hle
        have hle : rest.length + 1 + 1 ≤ 1 := hle rfl
        omega

/-- A reference frame, handed to the display as it is stored. -/
def shownReference (frameNum : Int) : List Op :=
  [.slice { sps := { numRefFrames := 2 }, nalReferenceIdc := 1, frameNum := frameNum } true,
    .store 0 [{}]]

def shownReferences : List Op := shownReference 0 ++ shownReference 1

/-- One of them was displayed. -/
theorem forced_removal_spares_waiting : ∃ s, Lib.Run.run step (initial 3 {} {} .idle)
      (shownReferences ++ [.setFrameOutputFlag 0]) = some s ∧
    s.used = [0, 1] ∧ s.unusedPos = none ∧ s.forcedStore 2 = some 0 ∧
    s.SparesOthers (s.bufmgrH264RemoveUnusedFrame 2) (s.forcedStore 2) := by
  obtain ⟨s, hs⟩ := Option.isSome_iff_exists.mp
    (by decide +kernel : (Lib.Run.run step (initial 3 {} {} .idle)
      (shownReferences ++ [.setFrameOutputFlag 0])).isSome = true)
  obtain ⟨d, hp⟩ := pooled_reachable ⟨3, {}, {}, .idle, by decide, _, hs⟩
  have hnone : s.unusedPos = none := Lib.Run.read_of_run unusedPos (by decide +kernel) hs
  have hcount : s.used.countP s.displayed = 1 :=
    Lib.Run.read_of_run (fun s => s.used.countP s.displayed) (by decide +kernel) hs
  refine ⟨s, hs, Lib.Run.read_of_run used (by decide +kernel) hs, hnone,
    Lib.Run.read_of_run (fun s => s.forcedStore 2) (by decide +kernel) hs, ?_⟩
  exact (forced_removal_spares_iff hp hnone (Or.inr rfl)).mpr fun _ => hcount.le

/-- Both were displayed: with force flag 2 the second one loses its marks as well. -/
theorem forced_removal_unmarks_both : ∃ s, Lib.Run.run step (initial 3 {} {} .idle)
      (shownReferences ++ [.setFrameOutputFlag 0, .setFrameOutputFlag 1]) = some s ∧
    s.unusedPos = none ∧ s.forcedStore 2 = some 0 ∧ s.used = [0, 1] ∧
    s.isUsedForReference 1 = true ∧
    (s.bufmgrH264RemoveUnusedFrame 2).isUsedForReference 1 = false ∧
    ¬ s.SparesOthers (s.bufmgrH264RemoveUnusedFrame 2) (s.forcedStore 2) := by
  obtain ⟨s, hs⟩ := Option.isSome_iff_exists.mp
    (by decide +kernel : (Lib.Run.run step (initial 3 {} {} .idle)
      (shownReferences ++ [.setFrameOutputFlag 0, .setFrameOutputFlag 1])).isSome = true)
  have hfirst : s.forcedStore 2 = some 0 :=
    Lib.Run.read_of_run (fun s => s.forcedStore 2) (by decide +kernel) hs
  have hused : s.used = [0, 1] := Lib.Run.read_of_run used (by decide +kernel) hs
  have hbefore : s.isUsedForReference 1 = true :=
    Lib.Run.read_of_run (fun s => s.isUsedForReference 1) (by decide +kernel) hs
  have hafter : (s.bufmgrH264RemoveUnusedFrame 2).isUsedForReference 1 = false :=
    Lib.Run.read_of_run (fun s => (s.bufmgrH264RemoveUnusedFrame 2).isUsedForReference 1)
      (by decide +kernel) hs
  refine ⟨s, hs, Lib.Run.read_of_run unusedPos (by decide +kernel) hs, hfirst, hused, hbefore,
    hafter, fun hspares => ?_⟩
  have hsame := (hspares 1 (by rw [hused]; decide) (by rw [hfirst]; decide)).2
  rw [hsame.isUsedForReference, hbefore] at hafter
  exact absurd hafter (by decide)

end MediaModules.H264Dpb.Dpb
