import MediaModules.Hevc.PicturePool

/-!
# Missing references

`ref_pic_error_handle` marks a picture whose lists name a POC that no reference has, and may put a
substitute into the lists. The search for the substitute does not ask whether a picture is a reference, and
list 1 is looked at for P slices as well.
-/
namespace MediaModules.Hevc.Pictures

open MediaModules.Lib.Select

/-- Where `f_diff` and `b_diff` start. -/
def farthest : Nat := 0xffffffff

/-- Nothing is found yet; the index is 0. -/
def noneFound : Nat × Pic := (farthest, ⟨0, by decide⟩)

section Handle

variable (s : State)

/-- The picture may be referenced by one of the current size. -/
def State.isRef (p : Pic) : Bool :=
  (s.mPIC p).live && (s.mPIC p).referenced && s.picW == (s.mPIC p).width && s.picH == (s.mPIC p).height

/-- `get_ref_pic_by_POC` -/
def getRefPicByPOC (poc : Int) : Option Pic :=
  (List.finRange _).foldl (pick (fun p => s.isRef p && (s.mPIC p).poc == poc)
    fun p b => decide ((s.mPIC b).decodeIdx < (s.mPIC p).decodeIdx)) none

/-- How far a POC is in front of another, and behind it. -/
def distBefore (cur poc : Int) : Option Nat := if poc < cur then some (cur - poc).toNat else none

def distAfter (cur poc : Int) : Option Nat := if cur < poc then some (poc - cur).toNat else none

/-- The distance of a picture with a buffer. -/
def State.distance (d : Int → Option Nat) (p : Pic) : Option Nat :=
  if (s.mPIC p).live then d (s.mPIC p).poc else none

/-- The loop over the pool: `f_diff` and `f_index`, `b_diff` and `b_index`. -/
def nearestPics (cur : Int) : (Nat × Pic) × (Nat × Pic) :=
  (List.finRange _).foldl (fun a p =>
    (closer (s.distance (distBefore cur)) a.1 p, closer (s.distance (distAfter cur)) a.2 p))
    (noneFound, noneFound)

/-- The POC of the first of two that was found, else that of the current picture, whose index is its slot
in the pool. -/
def substitute (cur : Pic) (first second : Nat × Pic) : Int :=
  if first.1 ≠ farthest then (s.mPIC first.2).poc
  else if second.1 ≠ farthest then (s.mPIC second.2).poc
  else (s.mPIC cur).poc

/-- The loop over the entries of a list. -/
def handleList (errorHandleMode : Nat) (nearest cur : Int) (n : Nat) (mark : Int) (list : Nat → Int) :
    Int × (Nat → Int) :=
  (List.range n).foldl (fun a i =>
    if (getRefPicByPOC s (a.2 i)).isSome then a
    else (1, if errorHandleMode = 2 then store a.2 i nearest
      else if errorHandleMode = 3 then store a.2 i cur else a.2)) (mark, list)

/-- `ref_pic_error_handle`, which returns 0. -/
def refPicErrorHandle (pbSkipMode errorHandleMode : Nat) (pic : SlicePic) : SlicePic :=
  match s.curPic with
  | none => pic
  | some p =>
    if pbSkipMode ≠ 0 ∨ pic.sliceType = I_SLICE then pic
    else
      let cur := (s.mPIC p).poc
      let near := if errorHandleMode = 2 then nearestPics s cur else (noneFound, noneFound)
      let r0 := handleList s errorHandleMode (substitute s p near.1 near.2) cur pic.refNumL0 pic.errorMark
        (pic.refPOCList0 pic.sliceIdx)
      let r1 := handleList s errorHandleMode (substitute s p near.2 near.1) cur pic.refNumL1 r0.1
        (pic.refPOCList1 pic.sliceIdx)
      { (pic.setList0 r0.2).setList1 r1.2 with errorMark := r1.1 }

end Handle

/-! ## What it is for -/

section Purpose

variable (s : State) (p : Pic)

/-- The POC is that of a reference. -/
def State.Resolves (poc : Int) : Prop := ∃ q, s.isRef q = true ∧ (s.mPIC q).poc = poc

/-- A reference other than the current picture. -/
def State.OtherRef (q : Pic) : Prop := q ≠ p ∧ s.isRef q = true

/-- The POC of a reference than which none is nearer. -/
def NearestRef (d : Int → Option Nat) (poc : Int) : Prop := ∃ q, s.OtherRef p q ∧ (s.mPIC q).poc = poc ∧
  ∃ k, d poc = some k ∧ ∀ q', s.OtherRef p q' → ∀ k', d (s.mPIC q').poc = some k' → k ≤ k'

/-- There is a reference on that side. -/
def RefOn (d : Int → Option Nat) : Prop := ∃ q, s.OtherRef p q ∧ (d (s.mPIC q).poc).isSome = true

/-- The nearest reference of the first side that has one. -/
def ChosenRef (d d' : Int → Option Nat) (poc : Int) : Prop :=
  (RefOn s p d → NearestRef s p d poc) ∧ (¬ RefOn s p d → RefOn s p d' → NearestRef s p d' poc)

/-- A list with an entry that resolves to no reference. -/
def Missing (n : Nat) (list : Nat → Int) : Prop := ∃ i < n, ¬ s.Resolves (list i)

/-- An entry is missing in a list that the slice uses. -/
def MissingUsed (pic : SlicePic) : Prop :=
  Missing s pic.refNumL0 (pic.refPOCList0 pic.sliceIdx) ∨
    pic.sliceType = B_SLICE ∧ Missing s pic.refNumL1 (pic.refPOCList1 pic.sliceIdx)

/-- What is replaced in a list resolves, and is the nearest reference, when there is one. -/
def Replaced (d d' : Int → Option Nat) (n : Nat) (before after : Nat → Int) : Prop :=
  (∃ q, s.OtherRef p q) → ∀ i < n, ¬ s.Resolves (before i) →
    s.Resolves (after i) ∧ ChosenRef s p d d' (after i)

/-- The missing references of a slice are handled. -/
structure RefsHandled (errorHandleMode : Nat) (before after : SlicePic) : Prop where
  marked : MissingUsed s before → after.errorMark = 1
  unmarked : ¬ MissingUsed s before → after.errorMark = before.errorMark
  kept0 : ∀ i, s.Resolves (before.refPOCList0 before.sliceIdx i) →
    after.refPOCList0 before.sliceIdx i = before.refPOCList0 before.sliceIdx i
  kept1 : ∀ i, s.Resolves (before.refPOCList1 before.sliceIdx i) →
    after.refPOCList1 before.sliceIdx i = before.refPOCList1 before.sliceIdx i
  replaced0 : errorHandleMode = 2 →
    Replaced s p (distBefore (s.mPIC p).poc) (distAfter (s.mPIC p).poc) before.refNumL0
      (before.refPOCList0 before.sliceIdx) (after.refPOCList0 before.sliceIdx)
  replaced1 : errorHandleMode = 2 → before.sliceType = B_SLICE →
    Replaced s p (distAfter (s.mPIC p).poc) (distBefore (s.mPIC p).poc) before.refNumL1
      (before.refPOCList1 before.sliceIdx) (after.refPOCList1 before.sliceIdx)

/-- Some picture with a buffer is in reach on that side. -/
def InReach (d : Int → Option Nat) : Prop := ∃ q k, s.distance d q = some k ∧ k < farthest

/-- Every picture with a buffer has a reference on its side that is as near; out of reach there is none. -/
def RefAsNear (d : Int → Option Nat) : Prop :=
  (∀ q k, s.distance d q = some k → k < farthest →
    ∃ q', s.OtherRef p q' ∧ ∃ k' ≤ k, d (s.mPIC q').poc = some k') ∧
  (¬ InReach s d → ¬ RefOn s p d)

/-- The first side that has pictures in reach has references as near as they are. -/
def RefsNear (d d' : Int → Option Nat) : Prop :=
  RefAsNear s p d ∧ (¬ InReach s d → RefAsNear s p d')

end Purpose

/-! ## The lists -/

section Lists

variable {s : State} {p : Pic} {mode n : Nat} {nearest cur mark : Int} {list : Nat → Int}

theorem resolves_iff (poc : Int) : (getRefPicByPOC s poc).isSome = true ↔ s.Resolves poc := by
  rw [← Option.ne_none_iff_isSome, getRefPicByPOC, ne_eq, foldl_pick_eq_none, State.Resolves]
  constructor
  · intro h
    by_contra hno
    refine h ⟨rfl, fun q _ => ?_⟩
    rw [Bool.eq_false_iff]
    intro hq
    rw [Bool.and_eq_true, beq_iff_eq] at hq
    exact hno ⟨q, hq⟩
  · rintro ⟨q, href, hpoc⟩ ⟨-, hall⟩
    have hq := hall q (List.mem_finRange q)
    rw [href, hpoc, beq_self_eq_true] at hq
    exact nomatch hq

instance (poc : Int) : Decidable (s.Resolves poc) := decidable_of_iff _ (resolves_iff poc)

/-- What the loop puts for an entry that does not resolve. -/
def replacement (mode : Nat) (nearest cur old : Int) : Int :=
  if mode = 2 then nearest else if mode = 3 then cur else old

theorem handleList_eq (s : State) (mode : Nat) (nearest cur : Int) (n : Nat) (mark : Int)
    (list : Nat → Int) :
    ((handleList s mode nearest cur n mark list).2 = fun i =>
      if i < n ∧ ¬ s.Resolves (list i) then replacement mode nearest cur (list i) else list i) ∧
    (Missing s n list → (handleList s mode nearest cur n mark list).1 = 1) ∧
    (¬ Missing s n list → (handleList s mode nearest cur n mark list).1 = mark) := by
  induction n with
  | zero =>
    refine ⟨?_, fun ⟨i, hi, _⟩ => absurd hi (Nat.not_lt_zero i), fun _ => rfl⟩
    funext i
    rw [if_neg fun h => Nat.not_lt_zero i h.1]
    rfl
  | succ n ih =>
    obtain ⟨hlist, hmark, hsame⟩ := ih
    have hentry : (handleList s mode nearest cur n mark list).2 n = list n :=
      (congrFun hlist n).trans (if_neg fun h => Nat.lt_irrefl n h.1)
    have hstep : handleList s mode nearest cur (n + 1) mark list =
        if (getRefPicByPOC s (list n)).isSome then handleList s mode nearest cur n mark list
        else (1, if mode = 2 then store (handleList s mode nearest cur n mark list).2 n nearest
          else if mode = 3 then store (handleList s mode nearest cur n mark list).2 n cur
          else (handleList s mode nearest cur n mark list).2) := by
      rw [← hentry, handleList, List.range_succ, List.foldl_append]
      rfl
    rw [hstep]
    by_cases hres : s.Resolves (list n)
    · rw [if_pos ((resolves_iff _).mpr hres)]
      have hmissing : Missing s (n + 1) list ↔ Missing s n list := by
        refine ⟨fun ⟨i, hi, hno⟩ => ⟨i, ?_, hno⟩, fun ⟨i, hi, hno⟩ => ⟨i, Nat.lt_succ_of_lt hi, hno⟩⟩
        refine Nat.lt_of_le_of_ne (Nat.le_of_lt_succ hi) fun heq => hno (heq ▸ hres)
      rw [hmissing]
      refine ⟨hlist.trans (funext fun i => ?_), hmark, hsame⟩
      refine if_congr (and_congr_left fun hno => ?_) rfl rfl
      refine ⟨Nat.lt_succ_of_lt, fun hi => ?_⟩
      exact Nat.lt_of_le_of_ne (Nat.le_of_lt_succ hi) fun heq => hno (heq ▸ hres)
    · rw [if_neg fun h => hres ((resolves_iff _).mp h)]
      refine ⟨?_, fun _ => rfl, fun hno => absurd ⟨n, Nat.lt_succ_self n, hres⟩ hno⟩
      funext i
      have hput : (if mode = 2 then store (handleList s mode nearest cur n mark list).2 n nearest
          else if mode = 3 then store (handleList s mode nearest cur n mark list).2 n cur
          else (handleList s mode nearest cur n mark list).2) i =
          if i = n then replacement mode nearest cur (list n)
          else (handleList s mode nearest cur n mark list).2 i := by
        rw [replacement]
        split
        · rfl
        · split
          · rfl
          · split
            · next heq => rw [heq, hentry]
            · rfl
      dsimp only
      rw [hput]
      by_cases heq : i = n
      · rw [if_pos heq, heq, if_pos ⟨Nat.lt_succ_self n, hres⟩]
      · rw [if_neg heq, hlist]
        refine if_congr (and_congr_left fun _ => ⟨Nat.lt_succ_of_lt, fun hi => ?_⟩) rfl rfl
        exact Nat.lt_of_le_of_ne (Nat.le_of_lt_succ hi) heq

end Lists

/-! ## The search -/

section Search

variable {s : State} {p q : Pic} {d d' : Int → Option Nat} {cur poc : Int} {k : Nat}

/-- A distance on one side of a POC tells the POCs of that side apart. -/
structure OneSided (cur : Int) (d d' : Int → Option Nat) : Prop where
  inj : ∀ x y k, d x = some k → d y = some k → x = y
  away : d cur = none
  other : ∀ x k, d x = some k → d' x = none
  either : ∀ x, d x = none → d' x = none → x = cur

theorem distBefore_sided (cur : Int) : OneSided cur (distBefore cur) (distAfter cur) := by
  refine ⟨fun x y k hx hy => ?_, if_neg (lt_irrefl cur), fun x k hx => ?_, fun x hx hy => ?_⟩
  all_goals unfold distBefore at *
  · grind
  · unfold distAfter
    grind
  · unfold distAfter at *
    grind

theorem distAfter_sided (cur : Int) : OneSided cur (distAfter cur) (distBefore cur) := by
  refine ⟨fun x y k hx hy => ?_, if_neg (lt_irrefl cur), fun x k hx => ?_, fun x hx hy => ?_⟩
  all_goals unfold distAfter at *
  · grind
  · unfold distBefore
    grind
  · unfold distBefore at *
    grind

theorem State.OtherRef.live (h : s.OtherRef p q) : (s.mPIC q).live = true := by
  have href := h.2
  rw [State.isRef, Bool.and_eq_true, Bool.and_eq_true, Bool.and_eq_true] at href
  exact href.1.1.1

theorem State.OtherRef.distance (h : s.OtherRef p q) (d : Int → Option Nat) :
    s.distance d q = d (s.mPIC q).poc := if_pos h.live

theorem State.OtherRef.resolves (h : s.OtherRef p q) : s.Resolves (s.mPIC q).poc := ⟨q, h.2, rfl⟩

theorem distance_some (h : s.distance d q = some k) : d (s.mPIC q).poc = some k := by
  rw [State.distance] at h
  split at h
  · exact h
  · exact nomatch h

/-- A POC that resolves away from the current picture is that of another reference. -/
theorem other_of_resolves (hside : OneSided (s.mPIC p).poc d d') (hres : s.Resolves poc)
    (hd : d poc = some k) : ∃ q, s.OtherRef p q ∧ (s.mPIC q).poc = poc := by
  obtain ⟨q, href, hpoc⟩ := hres
  refine ⟨q, ⟨fun heq => ?_, href⟩, hpoc⟩
  rw [← hpoc, heq, hside.away] at hd
  exact nomatch hd

theorem closer_found {best : Nat × Pic}
    (h : Nearest (s.distance d) (List.finRange _) noneFound best) :
    (best.1 ≠ farthest ↔ InReach s d) ∧
      (best.1 ≠ farthest → d (s.mPIC best.2).poc = some best.1 ∧ best.1 < farthest) := by
  have hfound (hne : best.1 ≠ farthest) : s.distance d best.2 = some best.1 := by
    rcases h.found with heq | ⟨-, hdist⟩
    · exact absurd (congrArg Prod.fst heq) hne
    · exact hdist
  refine ⟨⟨fun hne => ⟨best.2, best.1, hfound hne, Nat.lt_of_le_of_ne h.le_start hne⟩, ?_⟩,
    fun hne => ⟨distance_some (hfound hne), Nat.lt_of_le_of_ne h.le_start hne⟩⟩
  rintro ⟨q, k, hk, hlt⟩
  exact Nat.ne_of_lt (Nat.lt_of_le_of_lt (h.le q (List.mem_finRange q) k hk) hlt)

/-- Where a side has pictures in reach, the nearest of them stands for a reference exactly when references
are as near as the pictures are. -/
theorem nearestRef_iff (hside : OneSided (s.mPIC p).poc d d') {best : Nat × Pic}
    (h : Nearest (s.distance d) (List.finRange _) noneFound best) (hreach : InReach s d) :
    (s.Resolves (s.mPIC best.2).poc ∧ NearestRef s p d (s.mPIC best.2).poc) ↔ RefAsNear s p d := by
  obtain ⟨hiff, hbest⟩ := closer_found h
  obtain ⟨hdist, hlt⟩ := hbest (hiff.mpr hreach)
  constructor
  · rintro ⟨-, q, hq, hpoc, k, hk, hleast⟩
    obtain rfl : best.1 = k := Option.some.inj (hdist.symm.trans hk)
    refine ⟨fun q' k' hk' _ => ⟨q, hq, best.1, h.le q' (List.mem_finRange q') k' hk', ?_⟩,
      fun hno => absurd hreach hno⟩
    rw [hpoc, hdist]
  · intro hnear
    have hlive : s.distance d best.2 = some best.1 := by
      rcases h.found with heq | ⟨-, hdist⟩
      · exact absurd (congrArg Prod.fst heq) (Nat.ne_of_lt hlt)
      · exact hdist
    obtain ⟨q, hq, k, hk, hdq⟩ := hnear.1 best.2 best.1 hlive hlt
    have hge : best.1 ≤ k := h.le q (List.mem_finRange q) k (by rw [hq.distance, hdq])
    obtain rfl : best.1 = k := Nat.le_antisymm hge hk
    have hpoc : (s.mPIC q).poc = (s.mPIC best.2).poc := hside.inj _ _ _ hdq hdist
    refine ⟨hpoc ▸ hq.resolves, q, hq, hpoc, best.1, hdist, fun q' hq' k' hk' => ?_⟩
    exact h.le q' (List.mem_finRange q') k' (by rw [hq'.distance, hk'])

theorem NearestRef.refOn (h : NearestRef s p d poc) : RefOn s p d := by
  obtain ⟨q, hq, hpoc, k, hk, -⟩ := h
  exact ⟨q, hq, by rw [hpoc, hk]; rfl⟩

theorem refAsNear_unreached (h : ¬ InReach s d) : RefAsNear s p d ↔ ¬ RefOn s p d :=
  ⟨fun hnear => hnear.2 h, fun hno => ⟨fun q k hk hlt => absurd ⟨q, k, hk, hlt⟩ h, fun _ => hno⟩⟩

/-- The substitute is the right one exactly when references are near. -/
theorem substitute_iff (hside : OneSided (s.mPIC p).poc d d') (hside' : OneSided (s.mPIC p).poc d' d)
    {first second : Nat × Pic} (h : Nearest (s.distance d) (List.finRange _) noneFound first)
    (h' : Nearest (s.distance d') (List.finRange _) noneFound second) (hother : ∃ q, s.OtherRef p q) :
    (s.Resolves (substitute s p first second) ∧
      ChosenRef s p d d' (substitute s p first second)) ↔ RefsNear s p d d' := by
  obtain ⟨hiff, hfound⟩ := closer_found h
  obtain ⟨hiff', hfound'⟩ := closer_found h'
  by_cases hreach : InReach s d
  · -- the first side decides
    have hdist := (hfound (hiff.mpr hreach)).1
    have hright := nearestRef_iff hside h hreach
    rw [substitute, if_pos (hiff.mpr hreach), RefsNear, ← hright]
    constructor
    · rintro ⟨hres, hchosen, -⟩
      obtain ⟨q, hq, hpoc⟩ := other_of_resolves hside hres hdist
      exact ⟨⟨hres, hchosen ⟨q, hq, by rw [hpoc, hdist]; rfl⟩⟩, fun hno => absurd hreach hno⟩
    · rintro ⟨⟨hres, hnear⟩, -⟩
      exact ⟨hres, fun _ => hnear, fun hno => absurd hnear.refOn hno⟩
  · rw [substitute, if_neg fun hne => hreach (hiff.mp hne), RefsNear, refAsNear_unreached hreach]
    by_cases hreach' : InReach s d'
    · have hdist := (hfound' (hiff'.mpr hreach')).1
      have hright := nearestRef_iff hside' h' hreach'
      rw [if_pos (hiff'.mpr hreach'), ← hright]
      constructor
      · rintro ⟨hres, hchosen, hchosen'⟩
        obtain ⟨q, hq, hpoc⟩ := other_of_resolves hside' hres hdist
        have hoff : ¬ RefOn s p d := by
          intro hon
          obtain ⟨-, -, -, k, hk, -⟩ := hchosen hon
          exact nomatch hk.symm.trans (hside'.other _ _ hdist)
        exact ⟨hoff, fun _ => ⟨hres, hchosen' hoff ⟨q, hq, by rw [hpoc, hdist]; rfl⟩⟩⟩
      · rintro ⟨hoff, hnear⟩
        exact ⟨(hnear hreach).1, fun hon => absurd hon hoff, fun _ _ => (hnear hreach).2⟩
    · rw [if_neg fun hne => hreach' (hiff'.mp hne), refAsNear_unreached hreach']
      constructor
      · rintro ⟨-, hchosen, hchosen'⟩
        have hoff : ¬ RefOn s p d := by
          intro hon
          obtain ⟨-, -, -, k, hk, -⟩ := hchosen hon
          exact nomatch hk.symm.trans hside.away
        refine ⟨hoff, fun _ hon => ?_⟩
        obtain ⟨-, -, -, k, hk, -⟩ := hchosen' hoff hon
        exact nomatch hk.symm.trans hside'.away
      · rintro ⟨hoff, hoff'⟩
        obtain ⟨q, hq⟩ := hother
        have hnone (e : Int → Option Nat) (he : ¬ RefOn s p e) : e (s.mPIC q).poc = none := by
          by_contra hsome
          exact he ⟨q, hq, Option.ne_none_iff_isSome.mp hsome⟩
        have hpoc := hside.either _ (hnone d hoff) (hnone d' (hoff' hreach))
        exact ⟨hpoc ▸ hq.resolves, fun hon => absurd hon hoff, fun _ hon => absurd hon (hoff' hreach)⟩

end Search

/-! ## Slices -/

section Slices

variable {s : State} {p : Pic} {mode n : Nat} {nearest cur mark : Int} {list : Nat → Int}
  {d d' : Int → Option Nat} {first second : Nat × Pic} {params : RpsParams} {rps : HevcRPS}
  {pic : SlicePic}

theorem nearestPics_nearest (s : State) (cur : Int) :
    Nearest (s.distance (distBefore cur)) (List.finRange _) noneFound (nearestPics s cur).1 ∧
      Nearest (s.distance (distAfter cur)) (List.finRange _) noneFound (nearestPics s cur).2 := by
  rw [nearestPics, foldl_both]
  exact ⟨foldl_closer _ _ _, foldl_closer _ _ _⟩

theorem handleList_kept {i : Nat} (h : s.Resolves (list i)) :
    (handleList s mode nearest cur n mark list).2 i = list i := by
  rw [(handleList_eq s mode nearest cur n mark list).1]
  exact if_neg fun hno => hno.2 h

/-- What the loop over a list replaces is right exactly when references are near. -/
theorem handleList_replaced (hside : OneSided (s.mPIC p).poc d d') (hside' : OneSided (s.mPIC p).poc d' d)
    (h : Nearest (s.distance d) (List.finRange _) noneFound first)
    (h' : Nearest (s.distance d') (List.finRange _) noneFound second) (hmode : mode = 2) :
    Replaced s p d d' n list (handleList s mode (substitute s p first second) cur n mark list).2 ↔
      ((∃ q, s.OtherRef p q) → Missing s n list → RefsNear s p d d') := by
  have hput (i : Nat) (hi : i < n) (hno : ¬ s.Resolves (list i)) :
      (handleList s mode (substitute s p first second) cur n mark list).2 i =
        substitute s p first second := by
    rw [(handleList_eq s mode _ cur n mark list).1]
    exact (if_pos ⟨hi, hno⟩).trans (if_pos hmode)
  refine forall_congr' fun hother => ?_
  have hright := substitute_iff hside hside' h h' hother
  constructor
  · rintro hall ⟨i, hi, hno⟩
    have hentry := hall i hi hno
    rw [hput i hi hno] at hentry
    exact hright.mp hentry
  · intro hall i hi hno
    rw [hput i hi hno]
    exact hright.mpr (hall ⟨i, hi, hno⟩)

theorem handleList_marks {n' : Nat} {list' : Nat → Int} {nearest' : Int} :
    let r := handleList s mode nearest' cur n' (handleList s mode nearest cur n mark list).1 list'
    (Missing s n list ∨ Missing s n' list' ∨ mark = 1 → r.1 = 1) ∧
      (¬ Missing s n list → ¬ Missing s n' list' → r.1 = mark) := by
  obtain ⟨-, hmark, hsame⟩ := handleList_eq s mode nearest cur n mark list
  obtain ⟨-, hmark', hsame'⟩ :=
    handleList_eq s mode nearest' cur n' (handleList s mode nearest cur n mark list).1 list'
  refine ⟨fun h => ?_, fun hno hno' => (hsame' hno').trans (hsame hno)⟩
  by_cases h' : Missing s n' list'
  · exact hmark' h'
  · rw [hsame' h']
    by_cases hfirst : Missing s n list
    · exact hmark hfirst
    · rw [hsame hfirst]
      rcases h with h | h | h
      · exact absurd h hfirst
      · exact absurd h h'
      · exact h

/-- What a P or B slice gets. -/
theorem refPicErrorHandle_out (mode : Nat) (hcur : s.curPic = some p) (hslice : pic.sliceType ≠ I_SLICE) :
    ∃ near : (Nat × Pic) × (Nat × Pic), (mode = 2 → near = nearestPics s (s.mPIC p).poc) ∧
      (refPicErrorHandle s 0 mode pic).refPOCList0 pic.sliceIdx =
        (handleList s mode (substitute s p near.1 near.2) (s.mPIC p).poc pic.refNumL0 pic.errorMark
          (pic.refPOCList0 pic.sliceIdx)).2 ∧
      ∃ mark, (refPicErrorHandle s 0 mode pic).refPOCList1 pic.sliceIdx =
        (handleList s mode (substitute s p near.2 near.1) (s.mPIC p).poc pic.refNumL1 mark
          (pic.refPOCList1 pic.sliceIdx)).2 := by
  have hrun : ¬ (0 ≠ 0 ∨ pic.sliceType = I_SLICE) := fun h => h.elim (absurd rfl) hslice
  rw [refPicErrorHandle, hcur]
  dsimp only
  rw [if_neg hrun]
  exact ⟨_, fun hmode => if_pos hmode, if_pos rfl, _, if_pos rfl⟩

theorem refPicErrorHandle_mark (mode : Nat) (hcur : s.curPic = some p) (hslice : pic.sliceType ≠ I_SLICE) :
    (Missing s pic.refNumL0 (pic.refPOCList0 pic.sliceIdx) ∨
      Missing s pic.refNumL1 (pic.refPOCList1 pic.sliceIdx) ∨ pic.errorMark = 1 →
        (refPicErrorHandle s 0 mode pic).errorMark = 1) ∧
    (¬ Missing s pic.refNumL0 (pic.refPOCList0 pic.sliceIdx) →
      ¬ Missing s pic.refNumL1 (pic.refPOCList1 pic.sliceIdx) →
        (refPicErrorHandle s 0 mode pic).errorMark = pic.errorMark) := by
  have hrun : ¬ (0 ≠ 0 ∨ pic.sliceType = I_SLICE) := fun h => h.elim (absurd rfl) hslice
  rw [refPicErrorHandle, hcur]
  dsimp only
  rw [if_neg hrun]
  exact handleList_marks

/-- The references of a slice are handled exactly when list 1 does not mark a P slice alone and, in mode 2,
references are near where they are missing. -/
theorem refsHandled_iff (hcur : s.curPic = some p) (hslice : pic.sliceType ≠ I_SLICE) :
    RefsHandled s p mode pic (refPicErrorHandle s 0 mode pic) ↔
      (pic.sliceType = B_SLICE ∨ ¬ Missing s pic.refNumL1 (pic.refPOCList1 pic.sliceIdx) ∨
        Missing s pic.refNumL0 (pic.refPOCList0 pic.sliceIdx) ∨ pic.errorMark = 1) ∧
      (mode = 2 → (∃ q, s.OtherRef p q) →
        (Missing s pic.refNumL0 (pic.refPOCList0 pic.sliceIdx) →
          RefsNear s p (distBefore (s.mPIC p).poc) (distAfter (s.mPIC p).poc)) ∧
        (pic.sliceType = B_SLICE → Missing s pic.refNumL1 (pic.refPOCList1 pic.sliceIdx) →
          RefsNear s p (distAfter (s.mPIC p).poc) (distBefore (s.mPIC p).poc))) := by
  obtain ⟨near, hsearch, hlist0, mark, hlist1⟩ := refPicErrorHandle_out mode hcur hslice
  obtain ⟨hmark, hsame⟩ := refPicErrorHandle_mark mode hcur hslice
  obtain ⟨hnear0, hnear1⟩ := nearestPics_nearest s (s.mPIC p).poc
  have hbefore := distBefore_sided (s.mPIC p).poc
  have hafter := distAfter_sided (s.mPIC p).poc
  have hreplaced0 (hmode : mode = 2) :
      Replaced s p (distBefore (s.mPIC p).poc) (distAfter (s.mPIC p).poc) pic.refNumL0
        (pic.refPOCList0 pic.sliceIdx) ((refPicErrorHandle s 0 mode pic).refPOCList0 pic.sliceIdx) ↔
      ((∃ q, s.OtherRef p q) → Missing s pic.refNumL0 (pic.refPOCList0 pic.sliceIdx) →
        RefsNear s p (distBefore (s.mPIC p).poc) (distAfter (s.mPIC p).poc)) := by
    rw [hlist0, hsearch hmode]
    exact handleList_replaced hbefore hafter hnear0 hnear1 hmode
  have hreplaced1 (hmode : mode = 2) :
      Replaced s p (distAfter (s.mPIC p).poc) (distBefore (s.mPIC p).poc) pic.refNumL1
        (pic.refPOCList1 pic.sliceIdx) ((refPicErrorHandle s 0 mode pic).refPOCList1 pic.sliceIdx) ↔
      ((∃ q, s.OtherRef p q) → Missing s pic.refNumL1 (pic.refPOCList1 pic.sliceIdx) →
        RefsNear s p (distAfter (s.mPIC p).poc) (distBefore (s.mPIC p).poc)) := by
    rw [hlist1, hsearch hmode]
    exact handleList_replaced hafter hbefore hnear1 hnear0 hmode
  constructor
  · intro h
    refine ⟨?_, fun hmode hother => ⟨fun h0 => ?_, fun hB h1 => ?_⟩⟩
    · by_cases hused : MissingUsed s pic
      · rcases hused with h0 | ⟨hB, -⟩
        · exact Or.inr (Or.inr (Or.inl h0))
        · exact Or.inl hB
      · by_cases h1 : Missing s pic.refNumL1 (pic.refPOCList1 pic.sliceIdx)
        · have hset := hmark (Or.inr (Or.inl h1))
          exact Or.inr (Or.inr (Or.inr ((h.unmarked hused).symm.trans hset)))
        · exact Or.inr (Or.inl h1)
    · exact (hreplaced0 hmode).mp (h.replaced0 hmode) hother h0
    · exact (hreplaced1 hmode).mp (h.replaced1 hmode hB) hother h1
  · rintro ⟨hlists, hrefs⟩
    refine ⟨?_, fun hused => ?_, fun i hi => ?_, fun i hi => ?_, fun hmode => ?_, fun hmode hB => ?_⟩
    · rintro (h0 | ⟨-, h1⟩)
      · exact hmark (Or.inl h0)
      · exact hmark (Or.inr (Or.inl h1))
    · obtain ⟨hno0, hno1⟩ := not_or.mp hused
      rcases hlists with hB | h1 | h0 | hone
      · exact hsame hno0 fun h1 => hno1 ⟨hB, h1⟩
      · exact hsame hno0 h1
      · exact absurd h0 hno0
      · exact (hmark (Or.inr (Or.inr hone))).trans hone.symm
    · rw [hlist0, handleList_kept hi]
    · rw [hlist1, handleList_kept hi]
    · exact (hreplaced0 hmode).mpr fun hother => (hrefs hmode hother).1
    · exact (hreplaced1 hmode).mpr fun hother => (hrefs hmode hother).2 hB

/-- What is known of a slice whose lists were built. -/
structure Built (params : RpsParams) (before after : SlicePic) : Prop where
  sliceIdx : after.sliceIdx = before.sliceIdx
  errorMark : after.errorMark = before.errorMark
  refNumL1 : after.refNumL1 = numL1 params
  isP : params.sliceType = P_SLICE → after.sliceType = P_SLICE
  isB : params.sliceType = B_SLICE → after.sliceType = B_SLICE
  unused : params.sliceType ≠ B_SLICE → ∀ i < 16, after.refPOCList1 before.sliceIdx i = 0

theorem finish_isP {pic : SlicePic} (h : params.sliceType = P_SLICE) :
    (pic.finish params).sliceType = P_SLICE := by
  rw [SlicePic.finish]
  dsimp only
  rw [h]
  rfl

theorem finish_isB {pic : SlicePic} (h : params.sliceType = B_SLICE) :
    (pic.finish params).sliceType = B_SLICE := by
  rw [SlicePic.finish]
  dsimp only
  rw [h]
  rfl

/-- List 1 is cleared, and filled for a B slice alone. -/
theorem setRefPicList_built (h : (setRefPicList params rps pic).1 = 0) :
    Built params pic (setRefPicList params rps pic).2.2 := by
  have hcleared (i : Nat) (hi : i < 16) :
      ((pic.setList0 (cleared (pic.refPOCList0 pic.sliceIdx))).setList1
        (cleared (pic.refPOCList1 pic.sliceIdx))).refPOCList1 pic.sliceIdx i = 0 :=
    (congrFun (if_pos rfl) i).trans (if_pos hi)
  rw [setRefPicList] at h ⊢
  dsimp only at h ⊢
  split
  · exact ⟨rfl, rfl, rfl, finish_isP, finish_isB, fun _ => hcleared⟩
  · next htotal =>
    rw [if_neg htotal] at h
    split
    · next hbad =>
      rw [if_pos hbad] at h
      exact absurd (show (-1 : Int) = 0 from h) (by decide)
    · next hok =>
      rw [if_neg hok] at h
      split
      · exact ⟨rfl, rfl, rfl, finish_isP, finish_isB, fun _ => hcleared⟩
      · next hB =>
        rw [if_neg hB] at h
        split
        · next hbad =>
          rw [if_pos hbad] at h
          exact absurd (show (-1 : Int) = 0 from h) (by decide)
        · exact ⟨rfl, rfl, rfl, finish_isP, finish_isB, fun hno => absurd hno hB⟩

theorem numL1_le : numL1 params ≤ 16 := by
  rw [numL1]
  split
  · exact Nat.le_refl _
  · exact Nat.not_lt.mp (by assumption)

/-- When the references of a slice are handled: a P slice with entries of list 1, all 0, has a reference
of POC 0 or is marked all the same; in mode 2 references are near where they are missing. -/
structure HandledWhen (s : State) (p : Pic) (mode : Nat) (params : RpsParams) (pic : SlicePic) : Prop where
  onlyUsed : params.sliceType = P_SLICE → numL1 params = 0 ∨ s.Resolves 0 ∨
    Missing s pic.refNumL0 (pic.refPOCList0 pic.sliceIdx) ∨ pic.errorMark = 1
  near0 : mode = 2 → (∃ q, s.OtherRef p q) → Missing s pic.refNumL0 (pic.refPOCList0 pic.sliceIdx) →
    RefsNear s p (distBefore (s.mPIC p).poc) (distAfter (s.mPIC p).poc)
  near1 : mode = 2 → (∃ q, s.OtherRef p q) → params.sliceType = B_SLICE →
    Missing s pic.refNumL1 (pic.refPOCList1 pic.sliceIdx) →
      RefsNear s p (distAfter (s.mPIC p).poc) (distBefore (s.mPIC p).poc)

/-- The references of a P or B slice whose lists were built are handled exactly then. -/
theorem missing_refs_handled_iff (hcur : s.curPic = some p)
    (hslice : params.sliceType = P_SLICE ∨ params.sliceType = B_SLICE)
    (hlists : (setRefPicList params rps pic).1 = 0) (mode : Nat) :
    RefsHandled s p mode (setRefPicList params rps pic).2.2
        (refPicErrorHandle s 0 mode (setRefPicList params rps pic).2.2) ↔
      HandledWhen s p mode params (setRefPicList params rps pic).2.2 := by
  have hbuilt := setRefPicList_built hlists
  generalize (setRefPicList params rps pic).2.2 = out at hbuilt ⊢
  have htype : out.sliceType ≠ I_SLICE := by
    rcases hslice with hP | hB
    · rw [hbuilt.isP hP]
      decide
    · rw [hbuilt.isB hB]
      decide
  have hB : out.sliceType = B_SLICE ↔ params.sliceType = B_SLICE := by
    rcases hslice with hP | hB
    · rw [hbuilt.isP hP, hP]
      decide
    · rw [hbuilt.isB hB, hB]
      decide
  have hused (hP : params.sliceType = P_SLICE) :
      ¬ Missing s out.refNumL1 (out.refPOCList1 out.sliceIdx) ↔ numL1 params = 0 ∨ s.Resolves 0 := by
    have hnotB : params.sliceType ≠ B_SLICE := hP ▸ by decide
    have hzero (i : Nat) (hi : i < numL1 params) : out.refPOCList1 out.sliceIdx i = 0 := by
      rw [hbuilt.sliceIdx]
      exact hbuilt.unused hnotB i (Nat.lt_of_lt_of_le hi numL1_le)
    rw [hbuilt.refNumL1]
    constructor
    · intro hno
      by_contra hneither
      obtain ⟨hpos, hres⟩ := not_or.mp hneither
      exact hno ⟨0, Nat.pos_of_ne_zero hpos, by rwa [hzero 0 (Nat.pos_of_ne_zero hpos)]⟩
    · rintro heither ⟨i, hi, hno⟩
      rw [hzero i hi] at hno
      exact heither.elim (fun h => Nat.not_lt_zero i (h ▸ hi)) hno
  rw [refsHandled_iff hcur htype]
  constructor
  · rintro ⟨honly, hnear⟩
    refine ⟨fun hP => ?_, fun hmode hother => (hnear hmode hother).1,
      fun hmode hother hisB => (hnear hmode hother).2 (hB.mpr hisB)⟩
    rcases honly with hisB | h1 | h
    · exact absurd ((hB.mp hisB).symm.trans hP) (by decide)
    · rw [← or_assoc]
      exact Or.inl ((hused hP).mp h1)
    · exact Or.inr (Or.inr h)
  · rintro ⟨honly, hnear0, hnear1⟩
    refine ⟨?_, fun hmode hother => ⟨hnear0 hmode hother, fun hisB => hnear1 hmode hother (hB.mp hisB)⟩⟩
    rcases hslice with hP | hisB
    · have hcase := honly hP
      rw [← or_assoc, ← hused hP] at hcase
      exact Or.inr hcase
    · exact Or.inl (hB.mpr hisB)

/-- Where the current picture is the only one with a buffer that is no reference, references are near. -/
theorem RefAsNear.of_refs (hrefs : ∀ q, (s.mPIC q).live = true → q = p ∨ s.isRef q = true)
    (haway : d (s.mPIC p).poc = none) (hreach : ∀ q, ∀ k ∈ s.distance d q, k < farthest) :
    RefAsNear s p d := by
  have hother (q : Pic) (k : Nat) (hk : s.distance d q = some k) : s.OtherRef p q := by
    have hlive : (s.mPIC q).live = true := by
      by_contra hno
      exact nomatch hk.symm.trans (if_neg hno)
    rcases hrefs q hlive with rfl | href
    · exact nomatch (distance_some hk).symm.trans haway
    · refine ⟨fun heq => ?_, href⟩
      have hd := distance_some hk
      rw [heq, haway] at hd
      exact nomatch hd
  refine ⟨fun q k hk _ => ⟨q, hother q k hk, k, Nat.le_refl k, distance_some hk⟩, fun hno => ?_⟩
  rintro ⟨q, hq, hsome⟩
  obtain ⟨k, hk⟩ := Option.isSome_iff_exists.mp hsome
  have hdist := (hq.distance d).trans hk
  exact hno ⟨q, k, hdist, hreach q k hdist⟩

/-- A picture of the pool with a buffer, 64 samples wide and high. -/
def smallPic (poc : Int) (referenced : Bool) : Picture where
  created := true
  valid := true
  bufIndex := some ⟨0, by decide⟩
  width := 64
  height := 64
  poc := poc
  referenced := referenced

/-- The current picture, of POC 8, and two others. -/
def smallPool (first second : Picture) : State where
  mPIC := fun q => if q.val = 0 then smallPic 8 true else if q.val = 1 then first
    else if q.val = 2 then second else {}
  picW := 64
  picH := 64
  curPic := some ⟨0, by decide⟩

/-- The lists of a P slice that refers to POC 7, with entries of list 1. -/
def afterSeven (numRefIdxL1Active : Nat) : RpsParams where
  CUR_RPS := fun i => if i.val = 0 then 0x3fff else RPS_END
  numRefIdxL0Active := 1
  numRefIdxL1Active := numRefIdxL1Active
  sliceType := P_SLICE
  modificationFlag := 0
  modificationList := fun _ => 0
  spsMaxDecPicBufferingMinus1 := 1

def builtSeven (numRefIdxL1Active : Nat) : SlicePic :=
  (sliceLists (afterSeven numRefIdxL1Active) 8 zeroRps zeroPic).2.2

/-- The POC 7 is missing, and the reference of POC 6 stands for it. -/
theorem missing_seven_replaced :
    RefsHandled (smallPool (smallPic 6 true) (smallPic 4 true)) ⟨0, by decide⟩ 2 (builtSeven 0)
      (refPicErrorHandle (smallPool (smallPic 6 true) (smallPic 4 true)) 0 2 (builtSeven 0)) ∧
    (refPicErrorHandle (smallPool (smallPic 6 true) (smallPic 4 true)) 0 2
      (builtSeven 0)).refPOCList0 0 0 = 6 := by
  refine ⟨(@missing_refs_handled_iff _ _ (afterSeven 0) _ _ rfl (Or.inl rfl)
    (by decide +kernel) 2).mpr ⟨fun _ => Or.inl rfl, fun _ _ _ => ?_, fun _ _ hB => ?_⟩, by decide +kernel⟩
  · have hreach : InReach (smallPool (smallPic 6 true) (smallPic 4 true)) (distBefore 8) :=
      ⟨⟨1, by decide⟩, 2, by decide +kernel, by decide⟩
    exact ⟨RefAsNear.of_refs (by decide +kernel) (by decide +kernel) (by decide +kernel),
      fun hno => absurd hreach hno⟩
  · exact absurd hB (by decide)

/-- A P slice whose only reference is there is marked for list 1; and the picture of POC 6, which is no
reference, stands for the missing POC 7. -/
theorem missing_refs_not_handled :
    (¬ RefsHandled (smallPool (smallPic 7 true) {}) ⟨0, by decide⟩ 0 (builtSeven 1)
      (refPicErrorHandle (smallPool (smallPic 7 true) {}) 0 0 (builtSeven 1))) ∧
    ¬ RefsHandled (smallPool (smallPic 6 false) (smallPic 4 true)) ⟨0, by decide⟩ 2 (builtSeven 0)
      (refPicErrorHandle (smallPool (smallPic 6 false) (smallPic 4 true)) 0 2 (builtSeven 0)) := by
  have hres (s : State) (poc : Int) (h : (getRefPicByPOC s poc).isSome = false) : ¬ s.Resolves poc :=
    fun hyes => absurd ((resolves_iff poc).mpr hyes) (Bool.eq_false_iff.mp h)
  constructor
  · intro h
    have hused : ¬ MissingUsed (smallPool (smallPic 7 true) {}) (builtSeven 1) := by
      rintro (⟨i, hi, hno⟩ | ⟨hB, -⟩)
      · obtain rfl : i = 0 := Nat.lt_one_iff.mp hi
        exact hno ((resolves_iff _).mp (by decide +kernel))
      · exact absurd hB (by decide +kernel)
    exact absurd (h.unmarked hused) (by decide +kernel)
  · intro h
    have hreplaced := (h.replaced0 rfl ⟨⟨2, by decide⟩, by decide, by decide +kernel⟩ 0 (by decide +kernel)
      (hres _ _ (by decide +kernel))).1
    exact hres _ _ (by decide +kernel) hreplaced

end Slices

end MediaModules.Hevc.Pictures
