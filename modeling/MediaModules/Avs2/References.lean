import MediaModules.Avs2.RefInfo
import MediaModules.Lib.Run

/-!
# The frame of a picture is none of its references

`prepare_RefInfo` permutes the frame array, and a present reference takes its place in it. The frame for
the picture is the first one that may be decoded to, and the search does not ask whether it is a
reference: one that is far away, that was never decoded, or that stands for a missing one may be taken.
-/
namespace MediaModules.Avs2

open Lib.Rearrange Lib.Run Lib.Seats

namespace Decoder

variable (d : Decoder)

/-- Reference `i` is there. -/
def PresentRef (i : Nat) : Prop := Present d.coi d.refMaxbuffer d.fref (d.target i)

instance (i : Nat) : Decidable (d.PresentRef i) := inferInstanceAs (Decidable (Present _ _ _ _))

/-- What the references of a picture are after a call. -/
structure RefsRight (d d' : Decoder) (ret : Int) : Prop where
  perm : d'.fref.Perm (List.range REF_MAXBUFFER)
  placed : ret = 0 → d.imgType = .P_IMG ∨ d.imgType = .F_IMG →
    (∀ i k, i < k → k < d.count → d.currRPS.refPic i ≠ d.currRPS.refPic k) →
      ∀ i < d.count, d.PresentRef i → (d'.frame i).imgcoiRef = d.target i
  apart : ret = 0 → ∀ i < d.count, d'.fRec ≠ some (d'.refFrame i)

/-! ## When they are right -/

def slotRefDist (j i : Nat) : Nat := (d.coi (item d.fref j) - d.target i).natAbs

/-- A slot of the references may hold any frame: a reference is missing and has no substitute, or it is
wanted twice. -/
def Displaced : Prop :=
  (∃ i < d.count, ¬ d.PresentRef i ∧
    ¬ (d.Substitutes ∧ ∃ j < d.refMaxbuffer, d.slotRefDist j i < 0xffffffff)) ∨
  ∃ k < d.count, ∃ i < k, d.PresentRef i ∧ d.target i = d.target k

instance : Decidable d.Displaced :=
  inferInstanceAs (Decidable ((∃ i < _, _ ∧ ¬ (_ ∧ ∃ j < _, _)) ∨ ∃ k < _, ∃ i < k, _ ∧ _))

/-- The frame in a slot is not referred to: it has not the coding order of a reference, it is not
nearest to a missing one that gets a substitute, and it is not among the first if these may stay. -/
def Unreferred (j : Nat) : Prop :=
  (∀ i < d.count, d.coi (item d.fref j) ≠ d.target i) ∧
  (d.Substitutes → ∀ i < d.count, ¬ d.PresentRef i →
    ∃ k < d.refMaxbuffer, d.slotRefDist k i < d.slotRefDist j i) ∧
  (d.Displaced → d.count ≤ j)

instance (j : Nat) : Decidable (d.Unreferred j) :=
  inferInstanceAs (Decidable ((∀ i < _, _) ∧ (_ → ∀ i < _, _ → ∃ k < _, _) ∧ (_ → _)))

/-- No frame that may be decoded to is referred to. -/
def RefsBusy : Prop := ∀ j < d.refMaxbuffer, d.Free (d.frame j) → d.Unreferred j

instance : Decidable d.RefsBusy := inferInstanceAs (Decidable (∀ j < _, _ → _))

section Reordered

variable {d} {d' : Decoder} {i j n slot : Nat} {ret : Int}

theorem reordered_fref (d : Decoder) :
    d.reordered.fref = seatAll d.coi d.refMaxbuffer d.target d.fref d.count := d.placed_fref d.count

theorem reordered_errorFref (d : Decoder) (hi : i < d.count) : d.reordered.errorFref i =
    d.substitute (seatAll d.coi d.refMaxbuffer d.target d.fref i) i := by
  show (d.placed d.count).errorFref i = _
  rw [placed_errorFref, if_pos hi]

/-- The search for a frame sees the same frames. -/
theorem reordered_same (d : Decoder) : d.reordered.frmPool = d.frmPool ∧ d.reordered.tr = d.tr ∧
    d.reordered.refMaxbuffer = d.refMaxbuffer ∧ d.reordered.numOfReferences = d.currRPS.numOfRef := by
  rw [reordered, setUp]
  split <;> exact ⟨rfl, rfl, rfl, rfl⟩

theorem count_le_length (hperm : d.fref.Perm (List.range REF_MAXBUFFER)) :
    d.refMaxbuffer ≤ d.fref.length := by
  rw [hperm.length_eq, List.length_range]
  exact d.refMaxbuffer_le

theorem reordered_perm (hperm : d.fref.Perm (List.range REF_MAXBUFFER)) (hn : d.count ≤ MAXREF) :
    d.reordered.fref.Perm (List.range REF_MAXBUFFER) := by
  have hlength : d.count ≤ d.fref.length := by
    rw [hperm.length_eq, List.length_range]
    exact Nat.le_trans hn (by decide)
  rw [reordered_fref]
  exact (seatAll_perm (count_le_length hperm) hlength _).trans hperm

theorem slot_unique (hperm : d.fref.Perm (List.range REF_MAXBUFFER)) (hi : i < d.refMaxbuffer)
    (hj : j < d.refMaxbuffer) (h : item d.fref i = item d.fref j) : i = j := by
  have hlength := count_le_length hperm
  have hnodup : d.fref.Nodup := hperm.nodup_iff.mpr List.nodup_range
  have hi : i < d.fref.length := Nat.lt_of_lt_of_le hi hlength
  have hj : j < d.fref.length := Nat.lt_of_lt_of_le hj hlength
  rw [item, item, List.getD_eq_getElem?_getD, List.getD_eq_getElem?_getD, List.getElem?_eq_getElem hi,
    List.getElem?_eq_getElem hj] at h
  exact hnodup.getElem_inj_iff.mp h

/-- The frame that is found was in a slot before, and may be decoded to. -/
theorem freeSlot_from (hperm : d.fref.Perm (List.range REF_MAXBUFFER))
    (hbuffers : d.count ≤ d.refMaxbuffer) (h : d.reordered.freeSlot = some slot) :
    ∃ j < d.refMaxbuffer, item d.reordered.fref slot = item d.fref j ∧ d.Free (d.frame j) := by
  obtain ⟨hpool, htr, hmax, -⟩ := reordered_same d
  obtain ⟨hfree, hslot, -⟩ := List.find?_range_eq_some.mp h
  have hslot := List.mem_range.mp hslot
  rw [hmax] at hslot
  have hbelow := seatAll_below d.coi (count_le_length hperm) hbuffers d.target
  obtain ⟨j, hj, heq⟩ := Within.from hbelow hslot
  rw [← reordered_fref] at heq
  have hfree : d.reordered.Free (d.reordered.frame slot) := of_decide_eq_true hfree
  refine ⟨j, hj, heq, ?_⟩
  rw [frame, hpool, heq, Free, htr] at hfree
  exact hfree

theorem substitute_nearest (hperm : d.fref.Perm (List.range REF_MAXBUFFER))
    (hbuffers : d.count ≤ d.refMaxbuffer) (hi : i < d.count) {f : Nat} (h : d.reordered.errorFref i = some f) :
    d.Substitutes ∧ ¬ d.PresentRef i ∧
      ∀ k < d.refMaxbuffer, (d.coi f - d.target i).natAbs ≤ d.slotRefDist k i := by
  rw [reordered_errorFref d hi] at h
  have hle := Nat.le_trans (Nat.le_of_lt hi) hbuffers
  have hbelow := seatAll_below d.coi (count_le_length hperm) hle d.target
  by_cases hpresent : d.PresentRef i
  · rw [substitute_present ((present_of_within hbelow).mpr hpresent)] at h
    exact nomatch h
  · have hmissing := fun hp => hpresent ((present_of_within hbelow).mp hp)
    rw [substitute_missing hmissing] at h
    obtain ⟨hsub, h⟩ := Option.ite_none_right_eq_some.mp h
    obtain ⟨j, hrecent, rfl⟩ := Option.map_eq_some_iff.mp h
    refine ⟨hsub, hpresent, fun k hk => ?_⟩
    obtain ⟨m, hm, heq⟩ := Within.from (within_symm hbelow) hk
    rw [slotRefDist, heq]
    exact (recentIndex_nearest hrecent).2 m hm fun hno => hmissing ⟨m, hm, hno⟩

/-- A missing reference gets a substitute, where these are looked for. -/
theorem substitute_isSome (hperm : d.fref.Perm (List.range REF_MAXBUFFER))
    (hbuffers : d.count ≤ d.refMaxbuffer) (hi : i < d.count) (hmissing : ¬ d.PresentRef i) (hsub : d.Substitutes)
    (hreach : ∃ j < d.refMaxbuffer, d.slotRefDist j i < 0xffffffff) :
    (d.reordered.errorFref i).isSome = true := by
  obtain ⟨j, hj, hdist⟩ := hreach
  have hle := Nat.le_trans (Nat.le_of_lt hi) hbuffers
  have hbelow := seatAll_below d.coi (count_le_length hperm) hle d.target
  have hmissing := fun hp => hmissing ((present_of_within hbelow).mp hp)
  obtain ⟨m, hm, heq⟩ := Within.from (within_symm hbelow) hj
  rw [slotRefDist, heq] at hdist
  rw [reordered_errorFref d hi, substitute_missing hmissing, if_pos hsub, Option.isSome_map]
  exact recentIndex_isSome hm (fun hno => hmissing ⟨m, hm, hno⟩) hdist

theorem distinct_of_not_displaced (h : ¬ d.Displaced) :
    Distinct d.coi d.refMaxbuffer d.target d.count d.fref :=
  fun i k hik hk hpresent heq => h (Or.inr ⟨k, hk, i, hik, hpresent, heq⟩)

/-- No free frame that is not referred to stands for a reference. -/
theorem refFrame_ne (hperm : d.fref.Perm (List.range REF_MAXBUFFER))
    (hbuffers : d.count ≤ d.refMaxbuffer) (hj : j < d.refMaxbuffer) (hun : d.Unreferred j) (hi : i < d.count) :
    d.reordered.refFrame i ≠ item d.fref j := by
  obtain ⟨hwanted, hnearest, hlow⟩ := hun
  have hlength := count_le_length hperm
  rw [refFrame]
  cases herror : d.reordered.errorFref i with
  | some f =>
    intro heq
    obtain rfl : f = item d.fref j := heq
    obtain ⟨hsub, hmissing, hle⟩ := substitute_nearest hperm hbuffers hi herror
    obtain ⟨k, hk, hcloser⟩ := hnearest hsub i hi hmissing
    exact absurd hcloser (Nat.not_lt.mpr (hle k hk))
  | none =>
    intro heq
    have heq : item (seatAll d.coi d.refMaxbuffer d.target d.fref d.count) i = item d.fref j := by
      rw [← reordered_fref]
      exact heq
    by_cases hdisplaced : d.Displaced
    · have hfirst : (∃ l < d.count,
          item (seatAll d.coi d.refMaxbuffer d.target d.fref d.count) i = item d.fref l) ∨
            ∃ m < d.count, d.coi (item (seatAll d.coi d.refMaxbuffer d.target d.fref d.count) i) =
              d.target m := seatAll_low hlength hbuffers (Nat.le_refl d.count) hi
      rcases hfirst with ⟨l, hl, hold⟩ | ⟨m, hm, hkey⟩
      · have hsame := slot_unique hperm (Nat.lt_of_lt_of_le hl hbuffers) hj (hold.symm.trans heq)
        exact absurd (hlow hdisplaced) (Nat.not_le.mpr (hsame ▸ hl))
      · exact hwanted m hm (heq ▸ hkey)
    · by_cases hpresent : d.PresentRef i
      · have hseated := seatAll_seated hlength hbuffers (distinct_of_not_displaced hdisplaced) hi hpresent
        exact hwanted i hi (heq ▸ hseated)
      · have hreach := not_not.mp fun hno => hdisplaced (Or.inl ⟨i, hi, hpresent, hno⟩)
        have hsome := substitute_isSome hperm hbuffers hi hpresent hreach.1 hreach.2
        rw [herror] at hsome
        exact nomatch hsome

/-- Whatever a call returns, the array stays a permutation of the frame pool. -/
theorem prepareRefInfo_perm (hperm : d.fref.Perm (List.range REF_MAXBUFFER))
    (h : d.prepareRefInfo = .ok (d', ret)) : d'.fref.Perm (List.range REF_MAXBUFFER) := by
  have hmax := count_le_of_ok h
  rw [prepareRefInfo_eq hmax] at h
  have hreordered := reordered_perm hperm hmax
  rcases finish_cases h with ⟨-, hfref⟩ | ⟨-, hsame⟩ | ⟨-, slot, -, htook⟩
  · exact hfref ▸ hreordered
  · exact hsame ▸ hreordered
  · exact htook.fref ▸ hreordered

/-- After a call that returns 0, a frame has been taken that was free before. -/
theorem prepareRefInfo_took (h : d.prepareRefInfo = .ok (d', 0)) :
    ∃ slot, d.reordered.freeSlot = some slot ∧ Took d.reordered d' slot := by
  rw [prepareRefInfo_eq (count_le_of_ok h)] at h
  rcases finish_cases h with ⟨hret, -⟩ | ⟨hret, -⟩ | ⟨-, slot, hfree, htook⟩
  · rcases hret with hret | hret
    · exact absurd hret (by decide)
    · exact absurd hret (by decide)
  · exact absurd hret (by decide)
  · exact ⟨slot, hfree, htook⟩

/-- After a call, the references are right when no free frame was referred to, or none was taken. -/
theorem prepareRefInfo_right (hperm : d.fref.Perm (List.range REF_MAXBUFFER))
    (hbuffers : d.count ≤ d.refMaxbuffer) (hbusy : ret = 0 → d.RefsBusy)
    (h : d.prepareRefInfo = .ok (d', ret)) : RefsRight d d' ret := by
  refine ⟨prepareRefInfo_perm hperm h, fun hzero _ hdistinct i hi hpresent => ?_, fun hzero i hi => ?_⟩
  · subst hzero
    obtain ⟨slot, hfree, htook⟩ := prepareRefInfo_took h
    obtain ⟨j, hj, hslot, hfreeFrame⟩ := freeSlot_from hperm hbuffers hfree
    have hdist : Distinct d.coi d.refMaxbuffer d.target d.count d.fref := by
      intro i k hik hk _ heq
      have hdelta := hdistinct i k hik hk
      rw [target, target] at heq
      exact hdelta (by omega)
    have hseated := seatAll_seated (count_le_length hperm) hbuffers hdist hi hpresent
    rw [← reordered_fref] at hseated
    have hne : item d.reordered.fref i ≠ item d.reordered.fref slot := by
      intro heq
      rw [heq, hslot] at hseated
      exact (hbusy rfl j hj hfreeFrame).1 i hi hseated
    have hpool : d.reordered.coi = d.coi := by
      funext f
      rw [coi, (reordered_same d).1, coi]
    show d'.coi (item d'.fref i) = d.target i
    rw [htook.fref, htook.coi _ hne, hpool, hseated]
  · subst hzero
    obtain ⟨slot, hfree, htook⟩ := prepareRefInfo_took h
    obtain ⟨j, hj, hslot, hfreeFrame⟩ := freeSlot_from hperm hbuffers hfree
    rw [htook.fRec, refFrame, htook.fref, htook.errorFref, hslot]
    have hun := hbusy rfl j hj hfreeFrame
    exact fun heq => refFrame_ne hperm hbuffers hj hun hi (Option.some.inj heq).symm

end Reordered

end Decoder

/-! ## Runs -/

/-- Besides these two, the functions that write the frames, load headers and release buffers leave the
array of references as it is. -/
inductive BufferOp
  | initGlobalBuffers
  | prepareRefInfo
  | others (change : Decoder → Decoder)

def bufferStep (d : Decoder) : BufferOp → Option Decoder
  | .initGlobalBuffers => some { d with frmPool := fun _ => {}, fref := List.range REF_MAXBUFFER }
  | .prepareRefInfo => d.prepareRefInfo.toOption.map Prod.fst
  | .others change => some { change d with fref := d.fref }

variable {d d' : Decoder} {op : BufferOp} {ops : List BufferOp} {ret : Int}

theorem bufferStep_perm (hperm : d.fref.Perm (List.range REF_MAXBUFFER))
    (h : bufferStep d op = some d') : d'.fref.Perm (List.range REF_MAXBUFFER) := by
  cases op with
  | initGlobalBuffers =>
    obtain rfl := Option.some.inj h
    exact List.Perm.refl _
  | prepareRefInfo =>
    rw [bufferStep] at h
    cases hcall : d.prepareRefInfo with
    | error e =>
      rw [hcall] at h
      exact nomatch h
    | ok r =>
      rw [hcall] at h
      obtain rfl := Option.some.inj h
      exact Decoder.prepareRefInfo_perm hperm hcall
  | others change =>
    obtain rfl := Option.some.inj h
    exact hperm

/-- The array stays a permutation of the frame pool. -/
theorem run_perm (h : run bufferStep {} ops = some d) : d.fref.Perm (List.range REF_MAXBUFFER) :=
  run_invariant (fun _ _ _ hperm hstep => bufferStep_perm hperm hstep)
    (show ({} : Decoder).fref.Perm (List.range REF_MAXBUFFER) from List.Perm.refl _) h

/-- In every run, the references are right after a call that takes no frame, or before which no free frame
is referred to. -/
theorem references_right (hrun : run bufferStep {} ops = some d) (hbuffers : d.count ≤ d.refMaxbuffer)
    (hbusy : ret = 0 → d.RefsBusy) (h : d.prepareRefInfo = .ok (d', ret)) :
    Decoder.RefsRight d d' ret :=
  Decoder.prepareRefInfo_right (run_perm hrun) hbuffers hbusy h

/-- A header is loaded: a picture of coding order and distance `n`, with the references `deltas`. -/
def header (imgType : ImgType) (n : Int) (deltas : List Int) (d : Decoder) : Decoder :=
  { d with
    imgType := imgType
    tr := n
    codingOrder := n
    errorProcPolicy := 0
    currRPS := { numOfRef := deltas.length, refPic := fun i => deltas.getD i 0 } }

/-- Pictures 0 and 1 have been decoded, and the header of picture 2 refers to both. -/
def threePictures : List BufferOp :=
  [.others (header .I_IMG 0 []), .prepareRefInfo, .others (header .P_IMG 1 [1]), .prepareRefInfo,
    .others (header .P_IMG 2 [1, 2])]

theorem references_right_three : ∃ d d', run bufferStep {} threePictures = some d ∧
    d.prepareRefInfo = .ok (d', 0) ∧ d'.fref.take 3 = [1, 0, 2] ∧ d'.fRec = some 2 ∧
      Decoder.RefsRight d d' 0 := by
  refine ⟨_, _, rfl, rfl, by decide +kernel, rfl, ?_⟩
  have hrun : run bufferStep {} threePictures = some _ := rfl
  exact references_right hrun (by decide +kernel) (fun _ => by decide +kernel) rfl

/-- The first picture is a P picture: its reference is missing, all frames are equally near, and the
picture is decoded to the frame that stands for the reference. -/
theorem substitute_taken : ∃ d d', run bufferStep {} [.others (header .P_IMG 1 [1])] = some d ∧
    d.prepareRefInfo = .ok (d', 0) ∧ d'.fRec = some 0 ∧ d'.errorFref 0 = some 0 ∧
      ¬ Decoder.RefsRight d d' 0 := by
  refine ⟨_, _, rfl, rfl, rfl, rfl, fun h => ?_⟩
  exact h.apart rfl 0 (by decide) rfl

end MediaModules.Avs2
