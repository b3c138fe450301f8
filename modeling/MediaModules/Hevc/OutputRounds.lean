import MediaModules.Hevc.PictureMoves
import MediaModules.Lib.Bumping

/-!
# The output rounds of HEVC pictures

`output_pic` takes the picture with the lowest POC when too many wait; `output_pic_display` goes on
until no more than the reorder depth wait, or none after a flush. The pictures leave in the order of
the POC.
-/
namespace MediaModules.Hevc.Pictures

open MediaModules.Lib.Bumping MediaModules.Lib.Select

/-- None of the modes is on that show pictures early or leave pictures out. -/
structure Config.Plain (c : Config) : Prop where
  iOnly : c.iOnly = 0
  fastOutputEnable : c.fastOutputEnable = false
  efficiencyMode : c.efficiencyMode = false
  dual : c.dual = false
  noDisplay : c.noDisplay = false

/-- The picture has the reorder depth of its sequence and no mark that keeps it from the display. -/
structure Picture.Plain (r : Nat) (x : Picture) : Prop where
  numReorderPic : x.numReorderPic = r
  errorMark : x.errorMark = false
  nodispMark : x.nodispMark = false
  dropFlag : x.dropFlag = false
  needMmuCopy : x.needMmuCopy = false

/-- So many pictures may wait. -/
def limit (flush : Nat) (r : Nat) : Nat :=
  if flush = 0 then min r (MAX_REF_PIC_NUM - 2) else 0

/-- Pictures lose their marks for output and nothing else that `output_pic` sees. -/
structure Fades (s t : State) : Prop where
  core : ∀ q, (t.mPIC q).core = (s.mPIC q).core
  mark : ∀ q, (t.mPIC q).outputMark = true → (s.mPIC q).outputMark = true
  rest : t.rest = s.rest

section Rounds
variable {c : Config} {s t u : State} {p q : Pic} {x y : Picture} {r : Nat}

theorem Picture.Plain.of_core (h : x.Plain r) (hcore : y.core = x.core) : y.Plain r := by
  refine ⟨?_, ?_, ?_, ?_, ?_⟩
  · exact (congrArg Picture.numReorderPic hcore).trans h.numReorderPic
  · exact (congrArg Picture.errorMark hcore).trans h.errorMark
  · exact (congrArg Picture.nodispMark hcore).trans h.nodispMark
  · exact (congrArg Picture.dropFlag hcore).trans h.dropFlag
  · exact (congrArg Picture.needMmuCopy hcore).trans h.needMmuCopy

theorem Fades.refl (s : State) : Fades s s := ⟨fun _ => rfl, fun _ => id, rfl⟩

theorem Fades.trans (h1 : Fades s t) (h2 : Fades t u) : Fades s u :=
  ⟨fun q => (h2.core q).trans (h1.core q), fun q hq => h1.mark q (h2.mark q hq),
    h2.rest.trans h1.rest⟩

theorem fades_setPic (hcore : y.core = (s.mPIC p).core)
    (hmark : y.outputMark = true → (s.mPIC p).outputMark = true) : Fades s (s.setPic p y) := by
  refine ⟨fun q => ?_, fun q => ?_, rfl⟩
  all_goals by_cases hqp : q = p
  · rw [hqp, setPic_self]
    exact hcore
  · rw [setPic_other s y hqp]
  · rw [hqp, setPic_self]
    exact hmark
  · rw [setPic_other s y hqp]
    exact id

theorem Fades.waiting (h : Fades s t) (hq : (t.mPIC q).waiting = true) :
    (s.mPIC q).waiting = true := by
  have hknown := known_of_core (h.core q)
  simp only [Picture.waiting, Bool.and_eq_true] at hq ⊢
  refine ⟨?_, h.mark q hq.2⟩
  simp only [Picture.known] at hknown
  rw [← Bool.and_eq_true, ← hknown, Bool.and_eq_true]
  exact hq.1

theorem length_waitKeys (s : State) : numPicNotYetDisplay s = s.waitKeys.length := by
  rw [numPicNotYetDisplay, State.waitKeys, List.length_map, List.countP_eq_length_filter]

theorem mem_waitKeys {k : Key} :
    k ∈ s.waitKeys ↔ ∃ p, (s.mPIC p).waiting = true ∧ (s.mPIC p).key = k := by
  simp [State.waitKeys]

/-- A picture less waits. -/
theorem waitKeys_perm (hp : (s.mPIC p).waiting = true) (hgone : (t.mPIC p).waiting = false)
    (hother : ∀ q, q ≠ p → (t.mPIC q).waiting = (s.mPIC q).waiting)
    (hkey : ∀ q, (t.mPIC q).key = (s.mPIC q).key) :
    s.waitKeys.Perm ((s.mPIC p).key :: t.waitKeys) := by
  have hnodup : ((List.finRange _).filter fun q => (s.mPIC q).waiting).Nodup :=
    (List.nodup_finRange _).filter _
  have hmem : p ∈ (List.finRange _).filter fun q => (s.mPIC q).waiting := by simp [hp]
  have hfilter : ((List.finRange _).filter fun q => (t.mPIC q).waiting) =
      ((List.finRange _).filter fun q => (s.mPIC q).waiting).erase p := by
    rw [hnodup.erase_eq_filter, List.filter_filter]
    apply List.filter_congr
    intro q _
    by_cases hqp : q = p
    · rw [hqp, hgone]
      simp
    · rw [hother q hqp]
      simp [hqp]
  rw [State.waitKeys, State.waitKeys, hfilter, List.map_congr_left fun q _ => hkey q]
  exact (List.perm_cons_erase hmem).map fun q => (s.mPIC q).key

/-! ## One round -/

theorem fastOutput_plain (hc : c.Plain) (s : State) : fastOutput c s = (s, none, false) := by
  unfold fastOutput
  generalize List.finRange MAX_REF_PIC_NUM = l
  induction l with
  | nil => rfl
  | cons p l ih =>
    have hslow : s.fastFirst c p = false := by
      rw [State.fastFirst, hc.fastOutputEnable, Bool.and_false]
    rw [List.foldl_cons, if_neg (by rw [hslow]; exact Bool.false_ne_true)]
    exact ih

theorem before_irrefl (s : State) (p : Pic) : s.before p p = false := by
  simp [State.before]

theorem before_asymm (s : State) (p b : Pic) (h : s.before p b = true) : s.before b p = false := by
  simp only [State.before, decide_eq_true_eq, decide_eq_false_iff_not] at h ⊢
  omega

theorem before_neg_trans (s : State) (p b d : Pic) (h1 : s.before p b = false)
    (h2 : s.before b d = false) : s.before p d = false := by
  simp only [State.before, decide_eq_false_iff_not] at h1 h2 ⊢
  omega

/-- The picture that `output_pic` looks at waits and has the lowest POC. -/
theorem lowestPoc_spec (h : lowestPoc s none = some p) : (s.mPIC p).waiting = true ∧
    ∀ q, (s.mPIC q).waiting = true → (s.mPIC p).poc ≤ (s.mPIC q).poc := by
  constructor
  · rcases mem_of_foldl_pick h with hnone | ⟨-, hp⟩
    · cases hnone
    · exact hp
  · intro q hq
    have hbest := (foldl_pick_best (before_irrefl s) (before_asymm s) (before_neg_trans s) h).2 q
      (List.mem_finRange q) hq
    simp only [State.before, decide_eq_false_iff_not] at hbest
    omega

theorem afterFirst_plain (hfirst : s.firstPicFlag = 0) (flush : Bool) (p : Pic) :
    afterFirst s flush p = (some p, s) := by
  rw [afterFirst, if_neg]
  rw [hfirst]
  omega

/-- When no more wait than may, none goes out. -/
theorem outputPic_stays (hc : c.Plain) {flush : Nat}
    (hplain : ∀ q, (s.mPIC q).waiting = true → (s.mPIC q).Plain r)
    (hlen : s.waitKeys.length ≤ limit flush r) :
    outputPic c s (decide (flush ≠ 0)) = (none, s) := by
  have hnum := length_waitKeys s
  rw [outputPic, if_neg (by rw [hc.iOnly]; decide)]
  simp only [fastOutput_plain hc]
  cases hlow : lowestPoc s none with
  | none => rfl
  | some p =>
    obtain ⟨hwait, -⟩ := lowestPoc_spec hlow
    have hp := hplain p hwait
    have hpos : 0 < s.waitKeys.length :=
      List.length_pos_of_mem (mem_waitKeys.mpr ⟨p, hwait, rfl⟩)
    simp only [hc.dual, Bool.false_and, Bool.false_eq_true, if_false, hp.needMmuCopy,
      hp.numReorderPic]
    apply if_neg
    rw [hnum]
    unfold limit at hlen
    split at hlen
    next hflush =>
      simp only [hflush, ne_eq, not_true_eq_false, decide_false, Bool.or_eq_true, decide_eq_true_eq,
        Bool.or_false]
      simp only [MAX_REF_PIC_NUM] at hlen ⊢
      omega
    next => omega

/-- When more wait, the one with the lowest POC goes out. -/
theorem outputPic_goes (hc : c.Plain) (hfirst : s.firstPicFlag = 0) {flush : Nat}
    (hplain : ∀ q, (s.mPIC q).waiting = true → (s.mPIC q).Plain r)
    (hlen : limit flush r < s.waitKeys.length) :
    ∃ p, (s.mPIC p).waiting = true ∧
      (∀ q, (s.mPIC q).waiting = true → (s.mPIC p).poc ≤ (s.mPIC q).poc) ∧
      outputPic c s (decide (flush ≠ 0)) = (some p, readyPic s p) := by
  have hnum := length_waitKeys s
  rw [outputPic, if_neg (by rw [hc.iOnly]; decide)]
  simp only [fastOutput_plain hc]
  cases hlow : lowestPoc s none with
  | none =>
    obtain ⟨k, hk⟩ := List.exists_mem_of_length_pos (Nat.zero_lt_of_lt hlen)
    obtain ⟨p, hwait, -⟩ := mem_waitKeys.mp hk
    have hall := (foldl_pick_eq_none.mp hlow).2 p (List.mem_finRange p)
    rw [hwait] at hall
    cases hall
  | some p =>
    obtain ⟨hwait, hmin⟩ := lowestPoc_spec hlow
    have hp := hplain p hwait
    refine ⟨p, hwait, hmin, ?_⟩
    simp only [hc.dual, Bool.false_and, Bool.false_eq_true, if_false, hp.needMmuCopy,
      hp.numReorderPic]
    refine (if_pos ?_).trans (afterFirst_plain (s := readyPic s p) hfirst _ p)
    rw [hnum]
    unfold limit at hlen
    simp only [Bool.or_eq_true, decide_eq_true_eq]
    simp only [MAX_REF_PIC_NUM] at hlen ⊢
    split at hlen <;> omega

/-! ## All rounds -/

theorem Stays.fades (h : Stays s t) : Fades s t :=
  ⟨h.core, fun q hq => (h.mark q).symm.trans hq, h.rest⟩

theorem readyPic_fades (s : State) (p : Pic) : Fades s (readyPic s p) :=
  fades_setPic rfl fun h => by cases h

/-- A picture without such marks is handed to the display. -/
theorem showPic_spec (hc : c.Plain) (flush : Nat) (hp : (s.mPIC p).Plain r) :
    Fades s (showPic c s flush false p) ∧
      (∀ q, ((showPic c s flush false p).mPIC q).waiting = (s.mPIC q).waiting) ∧
      (showPic c s flush false p).handed = s.handed ++ [(s.mPIC p).key] := by
  have hfirst : Stays s (if flush = 2 then releaseRef s p else s) := by
    split
    · exact releaseRef_stays s p
    · exact Stays.refl s
  rw [showPic]
  generalize (if flush = 2 then releaseRef s p else s) = u at hfirst
  have hu : (u.mPIC p).Plain r := hp.of_core (hfirst.core p)
  have hshown : Stays { u with handed := s.handed ++ [(s.mPIC p).key] }
      (prepareDisplayBuf c u p) := by
    have hpic := stays_setPic (s := u) (p := p) (y := { u.mPIC p with
      vfRef := (c.display (u.mPIC p)).vfRef, outputReady := (c.display (u.mPIC p)).ready }) rfl rfl
    refine ⟨hpic.core, hpic.mark, hpic.rest, ?_⟩
    show u.handed ++ [(u.mPIC p).key] = s.handed ++ [(s.mPIC p).key]
    rw [hfirst.handed, key_of_core (hfirst.core p)]
  dsimp only
  rw [if_neg (by simp [hu.errorMark, hu.nodispMark, hu.dropFlag, hc.noDisplay]),
    if_neg (by simp [hc.iOnly]), if_neg Bool.false_ne_true]
  exact ⟨hfirst.fades.trans ⟨hshown.core, hshown.fades.mark, hshown.rest⟩, fun q => (hshown.waiting q).trans (hfirst.waiting q),
    hshown.handed⟩

/-- A round hands out one picture of those that wait. -/
theorem round_spec (hc : c.Plain) (flush : Nat) (hwait : (s.mPIC p).waiting = true)
    (hp : (s.mPIC p).Plain r) :
    Fades s (showPic c (readyPic s p) flush false p) ∧
      s.waitKeys.Perm ((s.mPIC p).key :: (showPic c (readyPic s p) flush false p).waitKeys) ∧
      (showPic c (readyPic s p) flush false p).handed = s.handed ++ [(s.mPIC p).key] := by
  have hready := readyPic_fades s p
  obtain ⟨hfades, hwaiting, hhanded⟩ :=
    showPic_spec hc flush (hp.of_core (hready.core p))
  have hall := hready.trans hfades
  refine ⟨hall, waitKeys_perm hwait ?_ (fun q hq => ?_) fun q => key_of_core (hall.core q), ?_⟩
  · rw [hwaiting, readyPic, setPic_self]
    exact not_waiting rfl
  · rw [hwaiting, readyPic, setPic_other _ _ hq]
  · rw [hhanded, key_of_core (hready.core p)]
    rfl

/-- What is known of a sequence when pictures may go out: those of `done` have come, the POCs
`post` are still to come. -/
structure Orderly (flush r : Nat) (done : List Key) (post : List Int) : Prop where
  reorders : Reorders (min r (MAX_REF_PIC_NUM - 2)) (done.map Prod.snd ++ post)
  nodup : (done.map Prod.snd ++ post).Nodup
  last : flush ≠ 0 → post = []

/-- Two pictures that wait have different POCs. -/
theorem Orderly.lower {flush : Nat} {out wait rest done : List Key} {post : List Int} {a : Key}
    (h : Orderly flush r done post) (hb : Bumped Prod.snd out wait done post)
    (hw : wait.Perm (a :: rest)) (hle : ∀ b ∈ wait, a.2 ≤ b.2) : ∀ b ∈ rest, a.2 < b.2 := by
  have hdone : (done.map Prod.snd).Nodup := (List.nodup_append.mp h.nodup).1
  have hall : ((out ++ a :: rest).map Prod.snd).Nodup :=
    (((hb.perm_wait hw).perm.map Prod.snd).nodup_iff).mpr hdone
  rw [List.map_append, List.map_cons] at hall
  have hrest := List.nodup_cons.mp (List.nodup_append.mp hall).2.1
  intro b hmem
  have hne : a.2 ≠ b.2 := fun heq => hrest.1 (heq ▸ List.mem_map_of_mem hmem)
  have hab := hle b (hw.mem_iff.mpr (List.mem_cons_of_mem a hmem))
  omega

/-- One more picture goes out in its turn. -/
theorem Orderly.bump {flush : Nat} {out wait rest done : List Key} {post : List Int} {a : Key}
    (h : Orderly flush r done post) (hb : Bumped Prod.snd out wait done post)
    (hw : wait.Perm (a :: rest)) (hle : ∀ b ∈ wait, a.2 ≤ b.2)
    (hlen : limit flush r < wait.length) : Bumped Prod.snd (out ++ [a]) rest done post := by
  have hmin := h.lower hb hw hle
  apply hb.bump hw hmin
  rw [limit, hw.length_eq, List.length_cons] at hlen
  split at hlen
  next => exact hb.above hw hmin (Nat.le_of_lt_succ hlen) h.reorders h.nodup
  next hflush =>
    rw [h.last hflush]
    exact fun k hk => absurd hk List.not_mem_nil

/-- The rounds hand out pictures in order until no more wait than may. -/
theorem outputLoop_spec (hc : c.Plain) {flush : Nat} {base done : List Key} {post : List Int}
    (horder : Orderly flush r done post) (rounds : Nat) (s : State) (out : List Key)
    (hfirst : s.firstPicFlag = 0) (hplain : ∀ q, (s.mPIC q).waiting = true → (s.mPIC q).Plain r)
    (hb : Bumped Prod.snd out s.waitKeys done post) (hlen : s.waitKeys.length < rounds)
    (hhanded : s.handed = base ++ out) :
    Fades s (outputLoop c flush false rounds s) ∧
      (outputLoop c flush false rounds s).waitKeys.length ≤ limit flush r ∧
      ∃ out', (outputLoop c flush false rounds s).handed = base ++ out' ∧
        Bumped Prod.snd out' (outputLoop c flush false rounds s).waitKeys done post := by
  induction rounds generalizing s out with
  | zero => exact absurd hlen (Nat.not_lt_zero _)
  | succ rounds ih =>
    rw [outputLoop]
    by_cases hstay : s.waitKeys.length ≤ limit flush r
    · rw [outputPic_stays hc hplain hstay]
      exact ⟨Fades.refl s, hstay, out, hhanded, hb⟩
    · obtain ⟨p, hwait, hmin, hround⟩ := outputPic_goes hc hfirst hplain (not_le.mp hstay)
      obtain ⟨hfades, hperm, hnext⟩ := round_spec hc flush hwait (hplain p hwait)
      rw [hround]
      dsimp only
      rw [if_neg Bool.false_ne_true]
      have hle : ∀ b ∈ s.waitKeys, (s.mPIC p).key.2 ≤ b.2 := fun b hmem => by
        obtain ⟨q, hq, rfl⟩ := mem_waitKeys.mp hmem
        exact hmin q hq
      have hcount := hperm.length_eq
      rw [List.length_cons] at hcount
      obtain ⟨hfades', hlimit, hout⟩ := ih (showPic c (readyPic s p) flush false p)
        (out ++ [(s.mPIC p).key])
        ((congrArg State.firstPicFlag hfades.rest).trans hfirst)
        (fun q hq => (hplain q (hfades.waiting hq)).of_core (hfades.core q))
        (horder.bump hb hperm hle (not_le.mp hstay)) (by omega)
        (by rw [hnext, hhanded, List.append_assoc])
      exact ⟨hfades.trans hfades', hlimit, hout⟩

/-! ## Marks for output -/

/-- The POC of the picture that `hevc_pre_pic` marks. -/
def decodedBefore (c : Config) (s : State) : Int := if c.mInsFlag then s.decodedPoc else s.iPrevPOC

/-- `hevc_pre_pic` forgets the POC of the last picture. -/
def forgetDecoded (c : Config) (s : State) : State :=
  if c.mInsFlag then { s with decodedPoc := INVALID_POC } else s

/-- The picture decoded last is marked for output. -/
def markDecoded (c : Config) (s : State) : Option Pic → State
  | none => s
  | some p => markPic (pbSkip c s p) p

/-- The picture is decoded and not marked yet. -/
structure Unmarked (s : State) (r : Nat) (p : Pic) : Prop where
  known : (s.mPIC p).known = true
  mark : (s.mPIC p).outputMark = false
  ipMode : (s.mPIC p).ipMode = false
  plain : (s.mPIC p).Plain r

theorem known_of_waiting (h : x.waiting = true) : x.known = true := by
  simp only [Picture.waiting, Picture.known, Bool.and_eq_true] at h ⊢
  exact h.1

theorem getPicByPOC_known {poc : Int} (h : getPicByPOC s poc = some p) :
    (s.mPIC p).known = true ∧ (s.mPIC p).poc = poc := by
  rw [getPicByPOC] at h
  split at h
  next => cases h
  next hpoc =>
    rcases mem_of_foldl_pick h with hnone | ⟨-, hok⟩
    · cases hnone
    · simp only [Bool.and_eq_true, beq_iff_eq] at hok
      refine ⟨?_, hok.2⟩
      rw [Picture.known, hok.1, hok.2, decide_eq_true hpoc]
      rfl

theorem markPic_other (s : State) (h : q ≠ p) : (markPic s p).mPIC q = s.mPIC q :=
  setPic_other _ _ h

theorem markPic_self (s : State) (p : Pic) : (markPic s p).mPIC p =
    { s.mPIC p with outputMark := (s.mPIC p).outputMark || !(s.mPIC p).ipMode } :=
  setPic_self _ _ _

theorem markPic_core (s : State) (p q : Pic) : ((markPic s p).mPIC q).core = (s.mPIC q).core := by
  by_cases hq : q = p
  · rw [hq, markPic_self]
    rfl
  · rw [markPic_other s hq]

/-- The marked picture joins those that wait. -/
theorem markPic_waitKeys (h : Unmarked s r p) :
    (markPic s p).waitKeys.Perm ((s.mPIC p).key :: s.waitKeys) := by
  have hkey := key_of_core (markPic_core s p p)
  rw [← hkey]
  refine waitKeys_perm ?_ (not_waiting h.mark) (fun q hq => ?_) fun q =>
    (key_of_core (markPic_core s p q)).symm
  · rw [markPic_self, h.ipMode, Bool.not_false, Bool.or_true]
    have hknown := h.known
    simp only [Picture.known, Picture.waiting, Bool.and_true] at hknown ⊢
    exact hknown
  · rw [markPic_other s hq]

theorem Unmarked.of_stays (h : Unmarked s r p) (hstays : Stays s t) : Unmarked t r p :=
  ⟨(known_of_core (hstays.core p)).trans h.known, (hstays.mark p).trans h.mark,
    (congrArg Picture.ipMode (hstays.core p)).trans h.ipMode, h.plain.of_core (hstays.core p)⟩

theorem markDecoded_spec {cur : Option Pic} (hcur : ∀ p, cur = some p → Unmarked s r p) :
    (∀ q, ((markDecoded c s cur).mPIC q).core = (s.mPIC q).core) ∧
      (∀ q, ((markDecoded c s cur).mPIC q).waiting = true →
        (s.mPIC q).waiting = true ∨ cur = some q) ∧
      (markDecoded c s cur).rest = s.rest ∧ (markDecoded c s cur).handed = s.handed ∧
      (markDecoded c s cur).waitKeys.Perm
        ((cur.map fun p => (s.mPIC p).key).toList ++ s.waitKeys) := by
  cases cur with
  | none => exact ⟨fun _ => rfl, fun _ hq => Or.inl hq, rfl, rfl, List.Perm.refl _⟩
  | some p =>
    have hskip := pbSkip_stays c s p
    have hperm := markPic_waitKeys ((hcur p rfl).of_stays hskip)
    rw [key_of_core (hskip.core p), waitKeys_eq hskip.rests] at hperm
    refine ⟨fun q => (markPic_core _ p q).trans (hskip.core q), fun q hq => ?_, hskip.rest,
      hskip.handed, hperm⟩
    by_cases hqp : q = p
    · exact Or.inr (congrArg some hqp.symm)
    · rw [markDecoded, markPic_other _ hqp, hskip.waiting q] at hq
      exact Or.inl hq

/-! ## The calls -/

theorem waitKeys_lt (s : State) : s.waitKeys.length < MAX_REF_PIC_NUM + 1 := by
  rw [← length_waitKeys]
  refine Nat.lt_succ_of_le (List.countP_le_length.trans ?_)
  rw [List.length_finRange]

/-- What a call that marks the last picture and then shows pictures leaves. -/
structure Shows (s t : State) (r : Nat) (most : Nat) (base out done : List Key) (post : List Int) :
    Prop where
  core : ∀ q, (t.mPIC q).core = (s.mPIC q).core
  plain : ∀ q, (t.mPIC q).waiting = true → (t.mPIC q).Plain r
  limit : t.waitKeys.length ≤ most
  handed : t.handed = base ++ out
  bumped : Bumped Prod.snd out t.waitKeys done post

theorem Shows.stays {most : Nat} {base out done : List Key} {post : List Int}
    (h : Shows s t r most base out done post) (hstays : Stays t u) :
    Shows s u r most base out done post := by
  have hkeys := waitKeys_eq hstays.rests
  refine ⟨fun q => (hstays.core q).trans (h.core q), fun q hq => ?_, ?_,
    hstays.handed.trans h.handed, ?_⟩
  · rw [hstays.waiting q] at hq
    exact (h.plain q hq).of_core (hstays.core q)
  · rw [hkeys]
    exact h.limit
  · rw [hkeys]
    exact h.bumped

/-- The last picture is marked and pictures are shown. -/
theorem outputPicDisplay_shows (hc : c.Plain) {flush : Nat} {cur : Option Pic}
    {base out done : List Key} {post : List Int} (horder : Orderly flush r done post)
    (hfirst : s.firstPicFlag = 0) (hplain : ∀ q, (s.mPIC q).waiting = true → (s.mPIC q).Plain r)
    (hcur : ∀ p, cur = some p → Unmarked s r p)
    (hb : Bumped Prod.snd out ((cur.map fun p => (s.mPIC p).key).toList ++ s.waitKeys) done post)
    (hhanded : s.handed = base ++ out) :
    (outputPicDisplay c (markDecoded c s cur) flush false).rest = s.rest ∧
      ∃ out', Shows s (outputPicDisplay c (markDecoded c s cur) flush false) r (limit flush r) base
        out' done post := by
  obtain ⟨hcore, hwait, hrest, hhand, hperm⟩ := markDecoded_spec (c := c) hcur
  have hmarked : ∀ q, ((markDecoded c s cur).mPIC q).waiting = true →
      ((markDecoded c s cur).mPIC q).Plain r := fun q hq => by
    rcases hwait q hq with hs | hq
    · exact (hplain q hs).of_core (hcore q)
    · exact (hcur q hq).plain.of_core (hcore q)
  obtain ⟨hfades, hlimit, out', hout, hb'⟩ := outputLoop_spec hc horder (MAX_REF_PIC_NUM + 1)
    (markDecoded c s cur) out ((congrArg State.firstPicFlag hrest).trans hfirst) hmarked
    (hb.perm_wait hperm.symm) (waitKeys_lt _) (hhand.trans hhanded)
  refine ⟨hfades.rest.trans hrest, out', fun q => (hfades.core q).trans (hcore q), fun q hq => ?_,
    hlimit, hout, hb'⟩
  exact (hmarked q (hfades.waiting hq)).of_core (hfades.core q)

theorem flushOutput_eq {cur : Option Pic} (hcur : ∀ p, cur = some p → Unmarked s r p) :
    flushOutput c s cur = interlaceClearNoPairPic
      (clearReferencedFlag (outputPicDisplay c (markDecoded c s cur) 2 false)) := by
  cases cur with
  | none => rfl
  | some p =>
    have hknown := ((hcur p rfl).of_stays (pbSkip_stays c s p)).known
    simp only [Picture.known, Bool.and_eq_true, decide_eq_true_eq] at hknown
    rw [flushOutput]
    dsimp only
    rw [if_pos hknown.2]
    rfl

theorem flushOutput_shows (hc : c.Plain) {cur : Option Pic} {base out done : List Key}
    (horder : Orderly 2 r done []) (hfirst : s.firstPicFlag = 0)
    (hplain : ∀ q, (s.mPIC q).waiting = true → (s.mPIC q).Plain r)
    (hcur : ∀ p, cur = some p → Unmarked s r p)
    (hb : Bumped Prod.snd out ((cur.map fun p => (s.mPIC p).key).toList ++ s.waitKeys) done [])
    (hhanded : s.handed = base ++ out) :
    (flushOutput c s cur).rest = s.rest ∧
      ∃ out', Shows s (flushOutput c s cur) r 0 base out' done [] := by
  obtain ⟨hrest, out', hshows⟩ := outputPicDisplay_shows hc horder hfirst hplain hcur hb hhanded
  have hstays := (clearReferencedFlag_stays
    (outputPicDisplay c (markDecoded c s cur) 2 false)).trans (interlaceClearNoPairPic_stays _)
  rw [flushOutput_eq hcur]
  exact ⟨hstays.rest.trans hrest, out', hshows.stays hstays⟩

theorem hevcPrePic_slice (hc : c.Plain) (hidr : s.idr = false) (hres : s.resChange = false) :
    hevcPrePic c s = outputPicDisplay c (markDecoded c (forgetDecoded c s)
      (getPicByPOC (forgetDecoded c s) (decodedBefore c s))) 0 false := by
  have hgo : (!(forgetDecoded c s).idr && !(forgetDecoded c s).resChange) = true := by
    rw [forgetDecoded]
    split <;> simp [hidr, hres]
  rw [hevcPrePic]
  refine (if_pos hgo).trans ((if_neg (by simp [hc.efficiencyMode])).trans ?_)
  rfl

theorem hevcPrePic_idr (hidr : s.idr = true) (hfirst : s.firstPicFlag = 0) :
    hevcPrePic c s = { flushOutput c (forgetDecoded c s)
      (getPicByPOC (forgetDecoded c s) (decodedBefore c s)) with resChange := false } := by
  have hflush : ¬ (!(forgetDecoded c s).idr && !(forgetDecoded c s).resChange) = true := by
    rw [forgetDecoded]
    split <;> simp [hidr]
  have hlate : ¬ (decide ((forgetDecoded c s).vfPreCount = 1) &&
      decide ((forgetDecoded c s).firstPicFlag = 1)) = true := by
    rw [forgetDecoded]
    split <;> simp [hfirst]
  rw [hevcPrePic]
  apply (if_neg hflush).trans
  show ({ flushOutput c
      (if decide ((forgetDecoded c s).vfPreCount = 1) &&
        decide ((forgetDecoded c s).firstPicFlag = 1)
      then { forgetDecoded c s with firstPicFlag := 2 } else forgetDecoded c s)
      (if decide ((forgetDecoded c s).vfPreCount = 1) &&
        decide ((forgetDecoded c s).firstPicFlag = 1)
      then none else getPicByPOC (forgetDecoded c s) (decodedBefore c s)) with
    resChange := false } : State) = _
  rw [if_neg hlate, if_neg hlate]

theorem hevcPrePic_shows (hc : c.Plain) {cur : Option Pic} {base out done : List Key}
    {post : List Int} (hres : s.idr = false → s.resChange = false)
    (horder : Orderly (if s.idr then 2 else 0) r done post) (hfirst : s.firstPicFlag = 0)
    (hplain : ∀ q, (s.mPIC q).waiting = true → (s.mPIC q).Plain r)
    (hfound : getPicByPOC s (decodedBefore c s) = cur)
    (hcur : ∀ p, cur = some p → Unmarked s r p)
    (hb : Bumped Prod.snd out ((cur.map fun p => (s.mPIC p).key).toList ++ s.waitKeys) done post)
    (hhanded : s.handed = base ++ out) :
    (hevcPrePic c s).rest = { (forgetDecoded c s).rest with resChange := false } ∧
      ∃ out', Shows s (hevcPrePic c s) r (limit (if s.idr then 2 else 0) r) base out' done
        post := by
  have hstays : (forgetDecoded c s).mPIC = s.mPIC ∧
      (forgetDecoded c s).firstPicFlag = s.firstPicFlag ∧
      (forgetDecoded c s).handed = s.handed ∧ (forgetDecoded c s).resChange = s.resChange := by
    rw [forgetDecoded]
    split <;> exact ⟨rfl, rfl, rfl, rfl⟩
  obtain ⟨hpics, hflag, hhand, hchange⟩ := hstays
  have hsame : getPicByPOC (forgetDecoded c s) (decodedBefore c s) = cur := by
    rw [← hfound, getPicByPOC, getPicByPOC, hpics]
  have hcur' : ∀ p, cur = some p → Unmarked (forgetDecoded c s) r p := fun p hp => by
    obtain ⟨h1, h2, h3, h4⟩ := hcur p hp
    rw [← hpics] at h1 h2 h3 h4
    exact ⟨h1, h2, h3, h4⟩
  have hkeys : (forgetDecoded c s).waitKeys = s.waitKeys := by
    rw [State.waitKeys, State.waitKeys, hpics]
  rw [← hkeys, ← hpics] at hb
  rw [← hpics] at hplain
  have hcore : ∀ {t : State} {most : Nat} {out' : List Key},
      Shows (forgetDecoded c s) t r most base out' done post →
      Shows s t r most base out' done post := fun h =>
    ⟨fun q => by rw [h.core q, hpics], h.plain, h.limit, h.handed, h.bumped⟩
  cases hidr : s.idr with
  | false =>
    rw [hidr, if_neg Bool.false_ne_true] at horder
    rw [hevcPrePic_slice hc hidr (hres hidr), hsame, if_neg Bool.false_ne_true]
    obtain ⟨hrest, out', hshows⟩ := outputPicDisplay_shows hc horder (hflag.trans hfirst) hplain
      hcur' hb (hhand.trans hhanded)
    refine ⟨?_, out', hcore hshows⟩
    rw [hrest]
    have hoff : (forgetDecoded c s).rest.resChange = false := hchange.trans (hres hidr)
    rw [← hoff]
  | true =>
    rw [hidr, if_pos rfl] at horder
    have hpost : post = [] := horder.last (by decide)
    subst hpost
    rw [hevcPrePic_idr hidr hfirst, hsame, if_pos rfl]
    obtain ⟨hrest, out', hshows⟩ := flushOutput_shows hc horder (hflag.trans hfirst) hplain
      hcur' hb (hhand.trans hhanded)
    refine ⟨?_, out', hcore ⟨hshows.core, hshows.plain, hshows.limit, hshows.handed,
      hshows.bumped⟩⟩
    rw [← hrest]
    rfl

end Rounds

end MediaModules.Hevc.Pictures
