import MediaModules.H264Dpb.RefListOrder
import MediaModules.H264Dpb.Runs

/-!
# The lists of the code against the initialisation process

Frame slices and field slices, P and B: the lists the code builds, rewritten with the eligible
pictures, and the exact condition under which they are the prescribed ones.
-/
namespace MediaModules.H264Dpb.Dpb

open MediaModules.H264Dpb.Qsort

variable {s : Dpb}

/-! ## Eligible frames and fields -/

theorem shortFrame_eq (i : Nat) :
    s.shortFrame i = s.eligibleFrame StorablePicture.shortTerm i := by
  unfold shortFrame eligibleFrame
  cases hf : (s.stores i).frame with
  | none => simp
  | some p => simp [Option.filter, pic, StorablePicture.shortTerm]

theorem longFrame_some {i p : Nat} :
    s.longFrame i = some p ↔
      (s.stores i).frame = some p ∧ (s.stores i).isUsed = .both ∧ (s.pics p).isLongTerm = true := by
  unfold longFrame
  rw [Option.ite_none_right_eq_some]
  constructor
  · rintro ⟨⟨h1, h2⟩, h3⟩
    rw [h3, pic_some] at h2
    exact ⟨h3, h1, h2⟩
  · rintro ⟨h3, h1, h2⟩
    refine ⟨⟨h1, ?_⟩, h3⟩
    rw [h3, pic_some]
    exact h2

theorem eligibleFrame_some {m : StorablePicture → Bool} {i p : Nat} :
    s.eligibleFrame m i = some p ↔
      (s.stores i).frame = some p ∧ (s.stores i).isUsed = .both ∧ m (s.pics p) = true := by
  unfold eligibleFrame
  simp [Option.filter_eq_some_iff]

theorem eligibleField_marked {m : StorablePicture → Bool} {parity : PictureStructure} {i p : Nat}
    (h : s.eligibleField m parity i = some p) : m (s.pics p) = true := by
  cases parity with
  | frame => exact absurd h (by simp [eligibleField])
  | topField =>
    simp only [eligibleField, Option.filter_eq_some_iff, Bool.and_eq_true] at h
    exact h.2.2
  | bottomField =>
    simp only [eligibleField, Option.filter_eq_some_iff, Bool.and_eq_true] at h
    exact h.2.2

theorem topRef_eq (m : StorablePicture → Bool) (isRef : Option Nat → Bool)
    (hr : ∀ q, isRef q = (q.isSome && m (s.pic q))) :
    s.topRef isRef = s.eligibleField m .topField := by
  funext i
  unfold topRef eligibleField
  rw [hr]
  cases hf : (s.stores i).topField with
  | none => simp
  | some p => simp [Option.filter, pic]

theorem bottomRef_eq (m : StorablePicture → Bool) (isRef : Option Nat → Bool)
    (hr : ∀ q, isRef q = (q.isSome && m (s.pic q))) :
    s.bottomRef isRef = s.eligibleField m .bottomField := by
  funext i
  unfold bottomRef eligibleField
  rw [hr]
  cases hf : (s.stores i).bottomField with
  | none => simp
  | some p => simp [Option.filter, pic]

/-- `gen_pic_list_from_frame_list` appends the eligible fields in alternating parity. -/
theorem genPicList_eq (hs : s.mSlice.picStructure ≠ .frame) (fsList list : List Nat)
    (longTerm : Bool) :
    s.genPicListFromFrameList s.mSlice.picStructure fsList list longTerm =
      list ++ s.alternatingFields
        (if longTerm then StorablePicture.longTerm else StorablePicture.shortTerm) fsList := by
  have hr : ∀ q, (if longTerm then s.isLongRef else s.isShortRef) q = (q.isSome &&
      (if longTerm then StorablePicture.longTerm else StorablePicture.shortTerm) (s.pic q)) := by
    intro q
    cases longTerm <;>
      simp [isLongRef, isShortRef, StorablePicture.longTerm, StorablePicture.shortTerm,
        Bool.and_assoc]
  unfold genPicListFromFrameList alternatingFields
  simp only [topRef_eq _ _ hr, bottomRef_eq _ _ hr]
  cases hp : s.mSlice.picStructure with
  | frame => exact absurd hp hs
  | topField => exact genFields_eq _ _ _ _ _ _ (Nat.lt_succ_self _) (Nat.lt_succ_self _)
  | bottomField => exact genFields_eq _ _ _ _ _ _ (Nat.lt_succ_self _) (Nat.lt_succ_self _)

/-- Stores without an eligible field do not matter to the fields. -/
theorem alternatingFields_filter (m : StorablePicture → Bool) (stores : List Nat) :
    s.alternatingFields m (stores.filter (s.holdsField m)) = s.alternatingFields m stores := by
  have hdrop : ∀ parity, (stores.filter (s.holdsField m)).filterMap (s.eligibleField m parity) =
      stores.filterMap (s.eligibleField m parity) := by
    intro parity
    rw [List.filterMap_filter]
    apply List.filterMap_congr
    intro i _
    cases hh : s.holdsField m i with
    | true => simp
    | false =>
      simp only [holdsField, Bool.or_eq_false_iff, Option.isSome_eq_false_iff,
        Option.isNone_iff_eq_none] at hh
      cases parity with
      | frame => simp [eligibleField]
      | topField => simp [hh.1]
      | bottomField => simp [hh.2]
  unfold alternatingFields
  rw [hdrop, hdrop]

theorem mem_alternatingFields {m : StorablePicture → Bool} {stores : List Nat} {p : Nat} :
    p ∈ s.alternatingFields m stores ↔ ∃ i ∈ stores,
      s.eligibleField m s.mSlice.picStructure i = some p ∨
        s.eligibleField m s.mSlice.picStructure.opposite i = some p := by
  unfold alternatingFields
  rw [(alternate_perm _ _).mem_iff, List.mem_append, List.mem_filterMap, List.mem_filterMap]
  constructor
  · rintro (⟨i, hi, h⟩ | ⟨i, hi, h⟩)
    · exact ⟨i, hi, Or.inl h⟩
    · exact ⟨i, hi, Or.inr h⟩
  · rintro ⟨i, hi, h | h⟩
    · exact Or.inl ⟨i, hi, h⟩
    · exact Or.inr ⟨i, hi, h⟩

/-! ## No entry twice -/

theorem nodup_filterMap {f : Nat → Option Nat} {xs : List Nat} (hx : xs.Nodup)
    (hinj : ∀ i ∈ xs, ∀ j ∈ xs, ∀ p, f i = some p → f j = some p → i = j) :
    (xs.filterMap f).Nodup := by
  refine List.pairwise_filterMap.mpr (List.Pairwise.imp_of_mem ?_ hx)
  intro i j hi hj hne p hp q hq hpq
  subst hpq
  exact hne (hinj i hi j hj p hp hq)

theorem mem_refs {i : Nat} : i ∈ s.fsRef ++ s.fsLtref ↔ i ∈ s.fsRef ∨ i ∈ s.fsLtref :=
  List.mem_append

/-- A picture is a field of one parity of one store only. -/
theorem RefSet.field_inj (h : s.RefSet) {m m' : StorablePicture → Bool}
    {parity parity' : PictureStructure} {i j p : Nat} (hi : i ∈ s.fsRef ++ s.fsLtref)
    (hj : j ∈ s.fsRef ++ s.fsLtref) (hip : s.eligibleField m parity i = some p)
    (hjp : s.eligibleField m' parity' j = some p) : i = j ∧ parity = parity' := by
  cases parity with
  | frame => exact absurd hip (by simp [eligibleField])
  | topField =>
    have hip := (Option.filter_eq_some_iff.mp hip).1
    cases parity' with
    | frame => exact absurd hjp (by simp [eligibleField])
    | topField =>
      have hjp := (Option.filter_eq_some_iff.mp hjp).1
      exact ⟨h.top_inj i hi j hj p hip hjp, rfl⟩
    | bottomField =>
      have hjp := (Option.filter_eq_some_iff.mp hjp).1
      exact absurd hjp (h.top_ne_bottom i hi j hj p hip)
  | bottomField =>
    have hip := (Option.filter_eq_some_iff.mp hip).1
    cases parity' with
    | frame => exact absurd hjp (by simp [eligibleField])
    | topField =>
      have hjp := (Option.filter_eq_some_iff.mp hjp).1
      exact absurd hip (h.top_ne_bottom j hj i hi p hjp)
    | bottomField =>
      have hjp := (Option.filter_eq_some_iff.mp hjp).1
      exact ⟨h.bottom_inj i hi j hj p hip hjp, rfl⟩

theorem opposite_ne {parity : PictureStructure} (h : parity ≠ .frame) :
    parity ≠ parity.opposite := by
  cases parity <;> simp_all [PictureStructure.opposite]

/-- The alternating fields of a set of reference stores have no entry twice. -/
theorem RefSet.fields_nodup (h : s.RefSet) (hs : s.mSlice.picStructure ≠ .frame)
    (m : StorablePicture → Bool) {stores : List Nat} (hn : stores.Nodup)
    (hsub : ∀ i ∈ stores, i ∈ s.fsRef ++ s.fsLtref) : (s.alternatingFields m stores).Nodup := by
  unfold alternatingFields
  rw [(alternate_perm _ _).nodup_iff, List.nodup_append]
  refine ⟨?_, ?_, ?_⟩
  · exact nodup_filterMap hn fun i hi j hj p hip hjp =>
      (h.field_inj (hsub i hi) (hsub j hj) hip hjp).1
  · exact nodup_filterMap hn fun i hi j hj p hip hjp =>
      (h.field_inj (hsub i hi) (hsub j hj) hip hjp).1
  · intro p hp q hq hpq
    subst hpq
    obtain ⟨i, hi, hip⟩ := List.mem_filterMap.mp hp
    obtain ⟨j, hj, hjp⟩ := List.mem_filterMap.mp hq
    exact opposite_ne hs (h.field_inj (hsub i hi) (hsub j hj) hip hjp).2

theorem RefSet.frames_nodup (h : s.RefSet) (m : StorablePicture → Bool) {stores : List Nat}
    (hn : stores.Nodup) (hsub : ∀ i ∈ stores, i ∈ s.fsRef ++ s.fsLtref) :
    (stores.filterMap (s.eligibleFrame m)).Nodup :=
  nodup_filterMap hn fun i hi j hj p hip hjp =>
    h.frame_inj i (hsub i hi) j (hsub j hj) p (eligibleFrame_some.mp hip).1
      (eligibleFrame_some.mp hjp).1

/-- No picture is marked both ways. -/
theorem short_ne_long {p : StorablePicture} (h : p.shortTerm = true) : p.longTerm = false := by
  unfold StorablePicture.shortTerm at h
  unfold StorablePicture.longTerm
  cases hl : p.isLongTerm <;> simp_all

/-! ## The size of the lists of frames -/

/-- A frame slice never has more entries than there are frame stores. -/
theorem RefSet.frames_length (h : s.RefSet) :
    (s.fsRef.filterMap s.shortFrame).length + (s.fsLtref.filterMap s.longFrame).length ≤
      DPB_SIZE_MAX := by
  have hlen : ∀ (f : Nat → Option Nat) (xs : List Nat),
      (xs.filterMap f).length = (xs.filter fun i => (f i).isSome).length := by
    intro f xs
    induction xs with
    | nil => rfl
    | cons i xs ih => cases hf : f i <;> simp [hf, ih]
  have hnodup : ((s.fsRef.filter fun i => (s.shortFrame i).isSome) ++
      s.fsLtref.filter fun i => (s.longFrame i).isSome).Nodup := by
    refine List.nodup_append.mpr ⟨h.ref_nodup.filter _, h.ltref_nodup.filter _, ?_⟩
    intro i hi j hj hij
    subst hij
    obtain ⟨p, hp⟩ := Option.isSome_iff_exists.mp (List.mem_filter.mp hi).2
    obtain ⟨q, hq⟩ := Option.isSome_iff_exists.mp (List.mem_filter.mp hj).2
    rw [shortFrame_eq, eligibleFrame_some] at hp
    rw [longFrame_some] at hq
    have hpq : p = q := Option.some.inj (hp.1.symm.trans hq.1)
    subst hpq
    have hm := hp.2.2
    simp [StorablePicture.shortTerm, hq.2.2] at hm
  have hsub : ((s.fsRef.filter fun i => (s.shortFrame i).isSome) ++
      s.fsLtref.filter fun i => (s.longFrame i).isSome) ⊆ List.range DPB_SIZE_MAX := by
    intro i hi
    rw [List.mem_range]
    rcases List.mem_append.mp hi with hi | hi
    · exact h.ref_lt i (List.mem_filter.mp hi).1
    · exact h.ltref_lt i (List.mem_filter.mp hi).1
  have hle := (List.subperm_of_subset hnodup hsub).length_le
  rw [List.length_append, List.length_range] at hle
  rw [hlen, hlen]
  exact hle

theorem checkValid_of_le {n : Nat} (h : n ≤ MAX_LIST_SIZE) : checkValid n = n :=
  if_neg (Nat.not_lt.mpr h)

theorem appendLongFrames_eq {list : List Nat}
    (h : list.length + (s.fsLtref.filterMap s.longFrame).length ≤ MAX_LIST_SIZE) :
    s.appendLongFrames list (checkValid list.length) =
      list ++ qsort s.comparePicByLtPicNumAsc (s.fsLtref.filterMap s.longFrame) := by
  have hp := (qsort_asc (fun p => (s.pics p).longTermPicNum) (s.fsLtref.filterMap s.longFrame)).1
  change (qsort s.comparePicByLtPicNumAsc _).Perm _ at hp
  have hlen := hp.length_eq
  unfold appendLongFrames
  dsimp only
  rw [checkValid_of_le (by omega : list.length ≤ _), List.take_left, List.drop_left,
    checkValid_of_le (by rw [List.length_append]; omega), List.take_length]

/-! ## Frame slices -/

/-- No long-term frame is left unused for reference. -/
def NoStrayFrame (s : Dpb) : Prop :=
  ∀ i ∈ s.fsLtref, ∀ p, (s.stores i).frame = some p → (s.stores i).isUsed = .both →
    (s.pics p).isLongTerm = true → (s.pics p).usedForReference = true

theorem longFrames_eq (hn : s.NoStrayFrame) :
    s.fsLtref.filterMap s.longFrame =
      s.fsLtref.filterMap (s.eligibleFrame StorablePicture.longTerm) := by
  apply List.filterMap_congr
  intro i hi
  apply Option.ext
  intro p
  rw [longFrame_some, eligibleFrame_some]
  constructor
  · rintro ⟨h1, h2, h3⟩
    refine ⟨h1, h2, ?_⟩
    rw [StorablePicture.longTerm, hn i hi p h1 h2 h3, h3]
    rfl
  · rintro ⟨h1, h2, h3⟩
    rw [StorablePicture.longTerm, Bool.and_eq_true] at h3
    exact ⟨h1, h2, h3.2⟩

/-- A list without unmarked pictures that has all long-term frames leaves none unused. -/
theorem noStrayFrame_of {list : List Nat} (hall : ∀ p ∈ list, (s.pics p).usedForReference = true)
    (hlong : ∀ p ∈ s.fsLtref.filterMap s.longFrame, p ∈ list) : s.NoStrayFrame := by
  intro i hi p h1 h2 h3
  exact hall p (hlong p (List.mem_filterMap.mpr ⟨i, hi, longFrame_some.mpr ⟨h1, h2, h3⟩⟩))

theorem eligibleFrames_marked {m : StorablePicture → Bool} {stores : List Nat}
    (hm : ∀ q : StorablePicture, m q = true → q.usedForReference = true) {p : Nat}
    (hp : p ∈ stores.filterMap (s.eligibleFrame m)) : (s.pics p).usedForReference = true := by
  obtain ⟨i, _, hi⟩ := List.mem_filterMap.mp hp
  exact hm _ (eligibleFrame_some.mp hi).2.2

theorem shortTerm_used (q : StorablePicture) (h : q.shortTerm = true) :
    q.usedForReference = true := by
  rw [StorablePicture.shortTerm, Bool.and_eq_true] at h
  exact h.1

theorem longTerm_used (q : StorablePicture) (h : q.longTerm = true) :
    q.usedForReference = true := by
  rw [StorablePicture.longTerm, Bool.and_eq_true] at h
  exact h.1

theorem longTermFrames_qsort (hn : s.NoStrayFrame) :
    s.LongTermFrames (qsort s.comparePicByLtPicNumAsc (s.fsLtref.filterMap s.longFrame)) := by
  rw [longFrames_eq hn]
  obtain ⟨h1, h2⟩ := qsort_asc (fun p => (s.pics p).longTermPicNum)
    (s.fsLtref.filterMap (s.eligibleFrame StorablePicture.longTerm))
  exact ⟨h1, h2⟩

/-- Short-term frames followed by the long-term ones: no entry twice. -/
theorem RefSet.shortLong_nodup (h : s.RefSet) {short long : List Nat}
    (hs : short.Perm (s.fsRef.filterMap (s.eligibleFrame StorablePicture.shortTerm)))
    (hl : long.Perm (s.fsLtref.filterMap (s.eligibleFrame StorablePicture.longTerm))) :
    (short ++ long).Nodup := by
  refine List.nodup_append.mpr ⟨?_, ?_, ?_⟩
  · exact hs.nodup_iff.mpr (h.frames_nodup _ h.ref_nodup fun i hi => mem_refs.mpr (Or.inl hi))
  · exact hl.nodup_iff.mpr (h.frames_nodup _ h.ltref_nodup fun i hi => mem_refs.mpr (Or.inr hi))
  · intro p hp q hq hpq
    subst hpq
    obtain ⟨i, _, hi⟩ := List.mem_filterMap.mp (hs.mem_iff.mp hp)
    obtain ⟨j, _, hj⟩ := List.mem_filterMap.mp (hl.mem_iff.mp hq)
    have hshort := short_ne_long (eligibleFrame_some.mp hi).2.2
    rw [(eligibleFrame_some.mp hj).2.2] at hshort
    exact Bool.noConfusion hshort

theorem shortFrames_eq :
    s.fsRef.filterMap s.shortFrame =
      s.fsRef.filterMap (s.eligibleFrame StorablePicture.shortTerm) :=
  List.filterMap_congr fun i _ => shortFrame_eq i

theorem initListsPSlice_frame (h : s.RefSet) (hf : s.mSlice.picStructure = .frame) :
    s.initListsPSlice =
      qsort s.comparePicByPicNumDesc (s.fsRef.filterMap s.shortFrame) ++
        qsort s.comparePicByLtPicNumAsc (s.fsLtref.filterMap s.longFrame) := by
  have hlen := h.frames_length
  have hp := (qsort_desc (fun p => (s.pics p).picNum) (s.fsRef.filterMap s.shortFrame)).1
  change (qsort s.comparePicByPicNumDesc _).Perm _ at hp
  have hsize := hp.length_eq
  unfold initListsPSlice
  rw [hf]
  apply appendLongFrames_eq
  rw [hsize]
  exact Nat.le_trans hlen (by decide)

theorem frameP_iff (h : s.RefSet) (hf : s.mSlice.picStructure = .frame) :
    s.InitialLists .pSlice (s.initLists .pSlice) ↔ s.NoStrayFrame := by
  have hlist := initListsPSlice_frame h hf
  obtain ⟨hp1, hp2⟩ := qsort_desc (fun p => (s.pics p).picNum) (s.fsRef.filterMap s.shortFrame)
  change (qsort s.comparePicByPicNumDesc _).Perm _ at hp1
  have hq := (qsort_asc (fun p => (s.pics p).longTermPicNum) (s.fsLtref.filterMap s.longFrame)).1
  change (qsort s.comparePicByLtPicNumAsc _).Perm _ at hq
  unfold InitialLists
  rw [hf]
  show (s.FrameListP s.initListsPSlice ∧ ([] : List Nat) = []) ∧ s.initListsPSlice.Nodup ∧ _ ↔ _
  constructor
  · rintro ⟨⟨⟨short, long, hsl, hs, _, hl⟩, -⟩, -⟩
    refine @noStrayFrame_of s s.initListsPSlice (fun p hp => ?_) fun p hp => ?_
    · rw [hsl] at hp
      rcases List.mem_append.mp hp with hp | hp
      · exact eligibleFrames_marked shortTerm_used (hs.mem_iff.mp hp)
      · exact eligibleFrames_marked longTerm_used (hl.eligible.mem_iff.mp hp)
    · rw [hlist]
      exact List.mem_append_right _ (hq.mem_iff.mpr hp)
  · intro hn
    have hlong := longTermFrames_qsort hn
    have hshort := hp1
    rw [shortFrames_eq] at hshort
    rw [hlist]
    refine ⟨⟨⟨_, _, rfl, ?_, hp2, hlong⟩, rfl⟩, ?_, List.nodup_nil⟩
    · rw [shortFrames_eq]
      exact hshort
    · rw [shortFrames_eq]
      exact h.shortLong_nodup hshort hlong.eligible

theorem swapIdentical_eq (list0 list1 : List Nat) :
    swapIdentical list0 list1 = secondList list0 list1 := by
  unfold swapIdentical secondList
  by_cases heq : list0 = list1
  · subst heq
    by_cases hlen : list0.length > 1
    · rw [if_pos ⟨rfl, hlen, rfl⟩, if_pos ⟨hlen, rfl⟩]
      rfl
    · rw [if_neg fun h => hlen h.2.1, if_neg fun h => hlen h.1]
  · rw [if_neg fun h => heq h.2.2, if_neg fun h => heq h.2.symm]

theorem swapFirstTwo_perm (list : List Nat) : (swapFirstTwo list).Perm list := by
  match list with
  | [] => exact List.Perm.refl _
  | [a] => exact List.Perm.refl _
  | a :: b :: rest => exact List.Perm.swap a b rest

theorem secondList_perm (list0 list1 : List Nat) : (secondList list0 list1).Perm list1 := by
  unfold secondList
  split
  · exact swapFirstTwo_perm list1
  · exact List.Perm.refl list1

/-- Sorting the entries up to a number downwards and those above it upwards. -/
theorem aroundPoc_qsort (poc : Nat → Int) (current : Int) (all : List Nat) :
    AroundPoc poc current all
      (qsort (fun x y => compareDesc (poc x) (poc y)) (all.filter fun x => poc x ≤ current))
      (qsort (fun x y => compareAsc (poc x) (poc y)) (all.filter fun x => current < poc x)) := by
  obtain ⟨h1, h2⟩ := qsort_desc poc (all.filter fun x => poc x ≤ current)
  obtain ⟨h3, h4⟩ := qsort_asc poc (all.filter fun x => current < poc x)
  exact ⟨h1, h2, h3, h4⟩

/-- Every entry lies on one side. -/
theorem AroundPoc.perm {poc : Nat → Int} {current : Int}
    {all before behind : List Nat} (h : AroundPoc poc current all before behind) :
    (before ++ behind).Perm all := by
  apply (h.before_eligible.append h.behind_eligible).trans
  have hnot : (all.filter fun x => decide (current < poc x)) =
      all.filter fun x => !decide (poc x ≤ current) := by
    apply List.filter_congr
    intro x _
    rw [← decide_not]
    exact decide_eq_decide.mpr (by omega)
  rw [hnot]
  exact List.filter_append_perm _ all

theorem initListsBSlice_frame (h : s.RefSet) (hf : s.mSlice.picStructure = .frame) :
    s.initListsBSlice =
      let before := qsort s.comparePicByPocDesc s.shortFramesUpTo
      let behind := qsort s.comparePicByPocAsc s.shortFramesAbove
      let long := qsort s.comparePicByLtPicNumAsc (s.fsLtref.filterMap s.longFrame)
      (before ++ behind ++ long,
        secondList (before ++ behind ++ long) (behind ++ before ++ long)) := by
  have hlen := h.frames_length
  have haround := (aroundPoc_qsort (fun p => (s.pics p).poc) s.mSlice.framepoc
    (s.fsRef.filterMap s.shortFrame)).perm.length_eq
  change (qsort s.comparePicByPocDesc s.shortFramesUpTo ++
    qsort s.comparePicByPocAsc s.shortFramesAbove).length = _ at haround
  have hmax : DPB_SIZE_MAX ≤ MAX_LIST_SIZE := by decide
  unfold initListsBSlice
  rw [hf]
  dsimp only
  generalize qsort s.comparePicByPocDesc s.shortFramesUpTo = before at haround
  generalize qsort s.comparePicByPocAsc s.shortFramesAbove = behind at haround
  have hcomm : (behind ++ before).length = (before ++ behind).length := by
    simp only [List.length_append]
    omega
  rw [appendLongFrames_eq (by omega : (before ++ behind).length + _ ≤ _), ← hcomm,
    appendLongFrames_eq (by omega : (behind ++ before).length + _ ≤ _), swapIdentical_eq]

theorem frameB_iff (h : s.RefSet) (hf : s.mSlice.picStructure = .frame) :
    s.InitialLists .bSlice (s.initLists .bSlice) ↔ s.NoStrayFrame := by
  have hlist := initListsBSlice_frame h hf
  have haround := aroundPoc_qsort (fun p => (s.pics p).poc) s.mSlice.framepoc
    (s.fsRef.filterMap s.shortFrame)
  change AroundPoc _ _ _ (qsort s.comparePicByPocDesc s.shortFramesUpTo)
    (qsort s.comparePicByPocAsc s.shortFramesAbove) at haround
  have hq := (qsort_asc (fun p => (s.pics p).longTermPicNum) (s.fsLtref.filterMap s.longFrame)).1
  change (qsort s.comparePicByLtPicNumAsc _).Perm _ at hq
  unfold InitialLists
  rw [hf]
  show s.FrameListsB s.initListsBSlice ∧ s.initListsBSlice.1.Nodup ∧ s.initListsBSlice.2.Nodup ↔ _
  rw [shortFrames_eq] at haround
  constructor
  · rintro ⟨⟨before, behind, long, hb, hl, hsl, _⟩, -⟩
    refine @noStrayFrame_of s s.initListsBSlice.1 (fun p hp => ?_) fun p hp => ?_
    · rw [hsl] at hp
      rcases List.mem_append.mp hp with hp | hp
      · exact eligibleFrames_marked shortTerm_used (hb.perm.mem_iff.mp hp)
      · exact eligibleFrames_marked longTerm_used (hl.eligible.mem_iff.mp hp)
    · rw [hlist]
      exact List.mem_append_right _ (hq.mem_iff.mpr hp)
  · intro hn
    have hlong := longTermFrames_qsort hn
    have hnodup := h.shortLong_nodup haround.perm hlong.eligible
    rw [hlist]
    refine ⟨⟨_, _, _, haround, hlong, rfl, rfl⟩, hnodup, ?_⟩
    apply ((secondList_perm _ _).nodup_iff).mpr
    exact ((List.perm_append_comm.append_right _).nodup_iff).mpr hnodup

/-! ## Field slices -/

theorem longTermStores_qsort (s : Dpb) :
    s.LongTermStores
      ((qsort s.compareFsByLtPicIdxAsc s.fsLtref).filter (s.holdsField StorablePicture.longTerm)) := by
  obtain ⟨h1, h2⟩ := qsort_asc (fun i => (s.stores i).longTermFrameIdx) s.fsLtref
  exact ⟨h1.filter _, h2.filter _⟩

/-- The fields of short-term stores followed by those of long-term stores: no entry twice. -/
theorem RefSet.fields_shortLong_nodup (h : s.RefSet) (hs : s.mSlice.picStructure ≠ .frame)
    {short long : List Nat} (hsh : ∀ i ∈ short, i ∈ s.fsRef) (hshn : short.Nodup)
    (hl : ∀ i ∈ long, i ∈ s.fsLtref) (hln : long.Nodup) :
    (s.alternatingFields StorablePicture.shortTerm short ++
      s.alternatingFields StorablePicture.longTerm long).Nodup := by
  refine List.nodup_append.mpr ⟨?_, ?_, ?_⟩
  · exact h.fields_nodup hs _ hshn fun i hi => mem_refs.mpr (Or.inl (hsh i hi))
  · exact h.fields_nodup hs _ hln fun i hi => mem_refs.mpr (Or.inr (hl i hi))
  · intro p hp q hq hpq
    subst hpq
    have hshort : (s.pics p).shortTerm = true := by
      obtain ⟨i, _, hi | hi⟩ := mem_alternatingFields.mp hp <;> exact eligibleField_marked hi
    have hlong : (s.pics p).longTerm = true := by
      obtain ⟨i, _, hi | hi⟩ := mem_alternatingFields.mp hq <;> exact eligibleField_marked hi
    rw [short_ne_long hshort] at hlong
    exact Bool.noConfusion hlong

/-- No short-term field belongs to a store without a reference mark. -/
def NoStrayField (s : Dpb) : Prop :=
  ∀ i ∈ s.fsRef, s.holdsField StorablePicture.shortTerm i = true →
    (s.stores i).isReference ≠ .empty

theorem initListsPSlice_field (hs : s.mSlice.picStructure ≠ .frame) :
    s.initListsPSlice =
      s.alternatingFields StorablePicture.shortTerm (qsort s.compareFsByFrameNumDesc
        (s.fsRef.filter fun i => (s.stores i).isReference ≠ .empty)) ++
      s.alternatingFields StorablePicture.longTerm (qsort s.compareFsByLtPicIdxAsc s.fsLtref) := by
  have hgen := fun fsList list longTerm => genPicList_eq hs fsList list longTerm
  unfold initListsPSlice
  cases hp : s.mSlice.picStructure with
  | frame => exact absurd hp hs
  | topField =>
    dsimp only
    rw [← hp, hgen, hgen]
    rfl
  | bottomField =>
    dsimp only
    rw [← hp, hgen, hgen]
    rfl

theorem initialLists_field_p (hs : s.mSlice.picStructure ≠ .frame) (lists : List Nat × List Nat) :
    s.InitialLists .pSlice lists ↔
      (s.FieldListP lists.1 ∧ lists.2 = []) ∧ lists.1.Nodup ∧ lists.2.Nodup := by
  unfold InitialLists
  cases hp : s.mSlice.picStructure with
  | frame => exact absurd hp hs
  | topField => exact Iff.rfl
  | bottomField => exact Iff.rfl

theorem holdsField_iff (hs : s.mSlice.picStructure ≠ .frame) (m : StorablePicture → Bool) (i : Nat) :
    s.holdsField m i = true ↔ ∃ p, s.eligibleField m s.mSlice.picStructure i = some p ∨
      s.eligibleField m s.mSlice.picStructure.opposite i = some p := by
  unfold holdsField
  rw [Bool.or_eq_true, Option.isSome_iff_exists, Option.isSome_iff_exists]
  cases hp : s.mSlice.picStructure with
  | frame => exact absurd hp hs
  | topField =>
    rw [← exists_or]
    rfl
  | bottomField =>
    rw [or_comm, ← exists_or]
    rfl

theorem fieldP_iff (h : s.RefSet) (hs : s.mSlice.picStructure ≠ .frame) :
    s.InitialLists .pSlice (s.initLists .pSlice) ↔ s.NoStrayField := by
  have hlist := initListsPSlice_field hs
  obtain ⟨hp1, hp2⟩ := qsort_desc (fun i => (s.stores i).frameNumWrap)
    (s.fsRef.filter fun i => (s.stores i).isReference ≠ .empty)
  change (qsort s.compareFsByFrameNumDesc _).Perm _ at hp1
  rw [initialLists_field_p hs]
  show (s.FieldListP s.initListsPSlice ∧ ([] : List Nat) = []) ∧ s.initListsPSlice.Nodup ∧ _ ↔ _
  constructor
  · rintro ⟨⟨⟨short, long, hsl, hsh, _, hl⟩, -⟩, -⟩ i hi hholds
    obtain ⟨p, hp⟩ := (holdsField_iff hs _ i).mp hholds
    have hip : p ∈ s.initListsPSlice := by
      rw [hsl]
      refine List.mem_append_left _ (mem_alternatingFields.mpr ⟨i, ?_, hp⟩)
      exact hsh.mem_iff.mpr (List.mem_filter.mpr ⟨hi, hholds⟩)
    have hshort : (s.pics p).shortTerm = true := by
      rcases hp with hp | hp <;> exact eligibleField_marked hp
    rw [hlist] at hip
    rcases List.mem_append.mp hip with hip | hip
    · -- the store the picture comes from in the list of the code is the store itself
      obtain ⟨j, hj, hjp⟩ := mem_alternatingFields.mp hip
      have hjref := List.mem_filter.mp (hp1.mem_iff.mp hj)
      have hij : i = j := by
        rcases hp with hp | hp <;> rcases hjp with hjp | hjp <;>
          exact (h.field_inj (mem_refs.mpr (Or.inl hi)) (mem_refs.mpr (Or.inl hjref.1)) hp hjp).1
      rw [hij]
      simpa using hjref.2
    · have hlong : (s.pics p).longTerm = true := by
        obtain ⟨j, _, hj | hj⟩ := mem_alternatingFields.mp hip <;> exact eligibleField_marked hj
      rw [short_ne_long hshort] at hlong
      exact Bool.noConfusion hlong
  · intro hn
    have hfilter : (s.fsRef.filter fun i => (s.stores i).isReference ≠ .empty).filter
        (s.holdsField StorablePicture.shortTerm) =
        s.fsRef.filter (s.holdsField StorablePicture.shortTerm) := by
      rw [List.filter_filter]
      apply List.filter_congr
      intro i hi
      cases hh : s.holdsField StorablePicture.shortTerm i with
      | false => rfl
      | true => simp [hn i hi hh]
    have hshort := hp1.filter (s.holdsField StorablePicture.shortTerm)
    rw [hfilter] at hshort
    have hlt := (qsort_asc (fun i => (s.stores i).longTermFrameIdx) s.fsLtref).1
    change (qsort s.compareFsByLtPicIdxAsc _).Perm _ at hlt
    rw [hlist]
    refine ⟨⟨⟨_, _, ?_, hshort, hp2.filter _, longTermStores_qsort s⟩, rfl⟩, ?_, List.nodup_nil⟩
    · rw [alternatingFields_filter, alternatingFields_filter]
    · refine h.fields_shortLong_nodup hs (fun i hi => ?_) ?_ (fun i hi => ?_) ?_
      · exact (List.mem_filter.mp (hp1.mem_iff.mp hi)).1
      · exact hp1.nodup_iff.mpr (h.ref_nodup.filter _)
      · exact hlt.mem_iff.mp hi
      · exact hlt.nodup_iff.mpr h.ltref_nodup

theorem AroundPoc.filter {poc : Nat → Int} {current : Int} {all before behind : List Nat}
    (h : AroundPoc poc current all before behind) (keep : Nat → Bool) :
    AroundPoc poc current (all.filter keep) (before.filter keep) (behind.filter keep) := by
  refine ⟨?_, h.before_order.filter _, ?_, h.behind_order.filter _⟩
  · rw [List.filter_comm]
    exact h.before_eligible.filter _
  · rw [List.filter_comm]
    exact h.behind_eligible.filter _

/-- The stores of `fs_ref` in use, those up to the current POC and those above it. -/
theorem aroundPoc_stores (s : Dpb) :
    AroundPoc (fun i => (s.stores i).poc) s.mSlice.thisPOC
      (s.fsRef.filter fun i => (s.stores i).isUsed ≠ .empty)
      (qsort s.compareFsByPocDesc (s.fsRef.filter fun i =>
        (s.stores i).isUsed ≠ .empty ∧ s.mSlice.thisPOC ≥ (s.stores i).poc))
      (qsort s.compareFsByPocAsc (s.fsRef.filter fun i =>
        (s.stores i).isUsed ≠ .empty ∧ s.mSlice.thisPOC < (s.stores i).poc)) := by
  have h := aroundPoc_qsort (fun i => (s.stores i).poc) s.mSlice.thisPOC
    (s.fsRef.filter fun i => (s.stores i).isUsed ≠ .empty)
  rw [List.filter_filter, List.filter_filter] at h
  have hup : (fun i => decide ((s.stores i).isUsed ≠ .empty ∧ s.mSlice.thisPOC ≥ (s.stores i).poc)) =
      fun i => decide ((s.stores i).poc ≤ s.mSlice.thisPOC) &&
        decide ((s.stores i).isUsed ≠ .empty) := by
    funext i
    rw [Bool.decide_and, Bool.and_comm]
  have habove : (fun i => decide ((s.stores i).isUsed ≠ .empty ∧
      s.mSlice.thisPOC < (s.stores i).poc)) =
      fun i => decide (s.mSlice.thisPOC < (s.stores i).poc) &&
        decide ((s.stores i).isUsed ≠ .empty) := by
    funext i
    rw [Bool.decide_and, Bool.and_comm]
  rw [hup, habove]
  exact h

/-- A store with an eligible field is in use. -/
theorem used_of_holdsField {m : StorablePicture → Bool} {i : Nat} (h : s.holdsField m i = true) :
    (s.stores i).isUsed ≠ .empty := by
  intro hu
  simp [holdsField, eligibleField, hu, FieldBits.empty] at h

theorem initListsBSlice_field (hs : s.mSlice.picStructure ≠ .frame) :
    s.initListsBSlice =
      let before := qsort s.compareFsByPocDesc (s.fsRef.filter fun i =>
        (s.stores i).isUsed ≠ .empty ∧ s.mSlice.thisPOC ≥ (s.stores i).poc)
      let behind := qsort s.compareFsByPocAsc (s.fsRef.filter fun i =>
        (s.stores i).isUsed ≠ .empty ∧ s.mSlice.thisPOC < (s.stores i).poc)
      let long := s.alternatingFields StorablePicture.longTerm
        (qsort s.compareFsByLtPicIdxAsc s.fsLtref)
      let list0 := s.alternatingFields StorablePicture.shortTerm (before ++ behind) ++ long
      (list0, secondList list0
        (s.alternatingFields StorablePicture.shortTerm (behind ++ before) ++ long)) := by
  have hgen := fun fsList list longTerm => genPicList_eq hs fsList list longTerm
  unfold initListsBSlice
  cases hp : s.mSlice.picStructure with
  | frame => exact absurd hp hs
  | topField =>
    dsimp only
    rw [← hp, hgen, hgen, hgen, hgen, swapIdentical_eq]
    rfl
  | bottomField =>
    dsimp only
    rw [← hp, hgen, hgen, hgen, hgen, swapIdentical_eq]
    rfl

theorem initialLists_field_b (hs : s.mSlice.picStructure ≠ .frame) (lists : List Nat × List Nat) :
    s.InitialLists .bSlice lists ↔
      s.FieldListsB lists ∧ lists.1.Nodup ∧ lists.2.Nodup := by
  unfold InitialLists
  cases hp : s.mSlice.picStructure with
  | frame => exact absurd hp hs
  | topField => exact Iff.rfl
  | bottomField => exact Iff.rfl

theorem fieldB_initialLists (h : s.RefSet) (hs : s.mSlice.picStructure ≠ .frame) :
    s.InitialLists .bSlice (s.initLists .bSlice) := by
  have hlist := initListsBSlice_field hs
  have haround := aroundPoc_stores s
  have hlt := (qsort_asc (fun i => (s.stores i).longTermFrameIdx) s.fsLtref).1
  change (qsort s.compareFsByLtPicIdxAsc _).Perm _ at hlt
  have hused : (s.fsRef.filter fun i => (s.stores i).isUsed ≠ .empty).filter
      (s.holdsField StorablePicture.shortTerm) =
      s.fsRef.filter (s.holdsField StorablePicture.shortTerm) := by
    rw [List.filter_filter]
    apply List.filter_congr
    intro i _
    cases hh : s.holdsField StorablePicture.shortTerm i with
    | false => rfl
    | true => simp [used_of_holdsField hh]
  have hspec := haround.filter (s.holdsField StorablePicture.shortTerm)
  rw [hused] at hspec
  have hperm := haround.perm
  rw [initialLists_field_b hs]
  show s.FieldListsB s.initListsBSlice ∧ s.initListsBSlice.1.Nodup ∧ s.initListsBSlice.2.Nodup
  rw [hlist]
  generalize qsort s.compareFsByPocDesc _ = before at hspec hperm
  generalize qsort s.compareFsByPocAsc _ = behind at hspec hperm
  have hfields : ∀ short : List Nat, short.Perm (before ++ behind) →
      (s.alternatingFields StorablePicture.shortTerm short ++ s.alternatingFields
        StorablePicture.longTerm (qsort s.compareFsByLtPicIdxAsc s.fsLtref)).Nodup := by
    intro short hshort
    have hsub := hshort.trans hperm
    refine h.fields_shortLong_nodup hs (fun i hi => ?_) ?_ (fun i hi => ?_) ?_
    · exact (List.mem_filter.mp (hsub.mem_iff.mp hi)).1
    · exact hsub.nodup_iff.mpr (h.ref_nodup.filter _)
    · exact hlt.mem_iff.mp hi
    · exact hlt.nodup_iff.mpr h.ltref_nodup
  refine ⟨⟨_, _, _, hspec, longTermStores_qsort s, ?_, ?_⟩, hfields _ (List.Perm.refl _), ?_⟩
  · rw [← List.filter_append, alternatingFields_filter, alternatingFields_filter]
  · rw [← List.filter_append, alternatingFields_filter, alternatingFields_filter]
  · exact (secondList_perm _ _).nodup_iff.mpr (hfields _ List.perm_append_comm)

/-! ## All slices -/

/-- The initial lists are those of the initialisation process exactly when no picture slips in
or out by a flag the code does not look at. -/
theorem initial_lists_iff (s : Dpb) (t : SliceType) (h : s.RefSet) :
    s.InitialLists t (s.initLists t) ↔ s.NoStray t := by
  cases t with
  | pSlice =>
    cases hp : s.mSlice.picStructure with
    | frame =>
      rw [frameP_iff h hp]
      unfold NoStray
      rw [hp]
      rfl
    | topField =>
      rw [fieldP_iff h (by simp [hp])]
      unfold NoStray
      rw [hp]
      rfl
    | bottomField =>
      rw [fieldP_iff h (by simp [hp])]
      unfold NoStray
      rw [hp]
      rfl
  | bSlice =>
    cases hp : s.mSlice.picStructure with
    | frame =>
      rw [frameB_iff h hp]
      unfold NoStray
      rw [hp]
      rfl
    | topField => simp [NoStray, hp, fieldB_initialLists h (by simp [hp] : s.mSlice.picStructure ≠ _)]
    | bottomField =>
      simp [NoStray, hp, fieldB_initialLists h (by simp [hp] : s.mSlice.picStructure ≠ _)]
  | other =>
    have hempty : s.initLists .other = ([], []) := rfl
    rw [hempty]
    unfold InitialLists NoStray
    cases s.mSlice.picStructure <;> simp

/-! ## A run with, and a run without, a stray picture -/

/-- A coded video of frames with one long-term IDR picture, up to its storing. -/
def longTermIdr : List Op :=
  [.configure {} true, .slice { idrFlag := true, nalReferenceIdc := 1, mmcoCmd := [1] } true,
    .store 0 []]

/-- A P slice that starts the next picture. -/
def nextSliceP : SliceParam :=
  { frameNum := 1, nalReferenceIdc := 1, sliceType := .pSlice, numRefIdxActive0 := 1 }

/-- The reference frame stores hold frames, no two the same one. -/
def FramesApart (s : Dpb) : Prop :=
  (s.fsRef ++ s.fsLtref).Nodup ∧ ∀ i ∈ s.fsRef ++ s.fsLtref,
    i < DPB_SIZE_MAX ∧ (s.stores i).topField = none ∧ (s.stores i).bottomField = none ∧
      ∀ j ∈ s.fsRef ++ s.fsLtref, (s.stores i).frame = (s.stores j).frame → i = j

instance (s : Dpb) : Decidable s.FramesApart := inferInstanceAs (Decidable (_ ∧ _))

theorem FramesApart.refSet {s : Dpb} (h : s.FramesApart) : s.RefSet := by
  obtain ⟨hnd, hall⟩ := h
  obtain ⟨href, hlt, -⟩ := List.nodup_append.mp hnd
  refine ⟨href, hlt, fun i hi => (hall i (List.mem_append_left _ hi)).1,
    fun i hi => (hall i (List.mem_append_right _ hi)).1, fun i hi j hj p hp hp' => ?_,
    fun i hi j hj p hp => ?_, fun i hi j hj p hp => ?_, fun i hi j hj p hp => ?_⟩
  · exact (hall i hi).2.2.2 j hj (hp.trans hp'.symm)
  · exact absurd ((hall i hi).2.1.symm.trans hp) nofun
  · exact absurd ((hall i hi).2.2.1.symm.trans hp) nofun
  · exact absurd ((hall i hi).2.1.symm.trans hp) nofun

/-- Behind the long-term IDR picture come another long-term frame and a short-term one. -/
def twoLongTerm : List Op :=
  longTermIdr ++ [.slice { nextSliceP with mmcoCmd := [4, 3, 6, 1, 0] } true, .store 0 [],
    .slice { nextSliceP with frameNum := 2, picOrderCntLsb := 4 } true, .store 0 [],
    .slice { nextSliceP with frameNum := 3, picOrderCntLsb := 6 } true]

/-- While they are references, the long-term frames come in their order behind the short-term one. -/
theorem initial_lists_long_term :
    ∃ s, Lib.Run.run step (initial 4 {} {} .idle) twoLongTerm = some s ∧
      s.InitialLists .pSlice (s.initLists .pSlice) ∧ s.initLists .pSlice = ([3, 1, 2], []) := by
  obtain ⟨s, hs⟩ := Option.isSome_iff_exists.mp
    (by decide +kernel : (Lib.Run.run step (initial 4 {} {} .idle) twoLongTerm).isSome = true)
  have hapart : decide s.FramesApart = true :=
    Lib.Run.read_of_run (fun s => decide s.FramesApart) (by decide +kernel) hs
  have hused : (s.fsLtref.all fun i => (s.stores i).frame.all fun p =>
      (s.pics p).usedForReference) = true :=
    Lib.Run.read_of_run (fun s => s.fsLtref.all fun i => (s.stores i).frame.all fun p =>
      (s.pics p).usedForReference) (by decide +kernel) hs
  have hslice : s.mSlice.picStructure = .frame :=
    Lib.Run.read_of_run (fun s => s.mSlice.picStructure) (by decide +kernel) hs
  have hlist : s.initLists .pSlice = ([3, 1, 2], []) :=
    Lib.Run.read_of_run (fun s => s.initLists .pSlice) (by decide +kernel) hs
  have hset := FramesApart.refSet (of_decide_eq_true hapart)
  refine ⟨s, hs, (initial_lists_iff s .pSlice hset).mpr ?_, hlist⟩
  unfold NoStray
  rw [hslice]
  intro i hi p hp _ _
  have hall := List.all_eq_true.mp hused i hi
  rwa [hp] at hall

/-- After `flush_dpb` has taken its reference mark, the frame is still listed. -/
theorem flushed_frame_listed :
    ∃ s, Lib.Run.run step (initial 4 {} {} .idle)
        (longTermIdr ++ [.flush [], .slice nextSliceP true]) = some s ∧
      s.RefSet ∧ (s.initLists .pSlice).1 = [1] ∧ (s.pics 1).usedForReference = false ∧
      ¬ s.InitialLists .pSlice (s.initLists .pSlice) := by
  obtain ⟨s, hs⟩ := Option.isSome_iff_exists.mp
    (by decide +kernel : (Lib.Run.run step (initial 4 {} {} .idle)
      (longTermIdr ++ [.flush [], .slice nextSliceP true])).isSome = true)
  have hapart : decide s.FramesApart = true :=
    Lib.Run.read_of_run (fun s => decide s.FramesApart) (by decide +kernel) hs
  have hslice : s.mSlice.picStructure = .frame :=
    Lib.Run.read_of_run (fun s => s.mSlice.picStructure) (by decide +kernel) hs
  have hlist : (s.initLists .pSlice).1 = [1] :=
    Lib.Run.read_of_run (fun s => (s.initLists .pSlice).1) (by decide +kernel) hs
  have hshort : s.fsRef.filterMap (s.eligibleFrame StorablePicture.shortTerm) = [] :=
    Lib.Run.read_of_run (fun s => s.fsRef.filterMap (s.eligibleFrame StorablePicture.shortTerm))
      (by decide +kernel) hs
  have hlong : s.fsLtref.filterMap (s.eligibleFrame StorablePicture.longTerm) = [] :=
    Lib.Run.read_of_run (fun s => s.fsLtref.filterMap (s.eligibleFrame StorablePicture.longTerm))
      (by decide +kernel) hs
  have hused : (s.pics 1).usedForReference = false :=
    Lib.Run.read_of_run (fun s => (s.pics 1).usedForReference) (by decide +kernel) hs
  refine ⟨s, hs, (of_decide_eq_true hapart).refSet, hlist, hused, ?_⟩
  unfold InitialLists
  rw [hslice, hlist]
  rintro ⟨⟨⟨short, long, heq, h1, -, h2⟩, -⟩, -⟩
  have hs1 : short = [] := List.perm_nil.mp (hshort ▸ h1)
  have hl1 : long = [] := List.perm_nil.mp (hlong ▸ h2.eligible)
  rw [hs1, hl1] at heq
  exact absurd heq (by simp)

end MediaModules.H264Dpb.Dpb
