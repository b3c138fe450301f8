import MediaModules.Hevc.PictureBuffers

/-!
# Moves of the HEVC pictures without output

What references, buffers, new pictures and the display change of the pool: the pictures that wait
for their output stay, with their marks, and those that can be found by their POC are no others.
-/
namespace MediaModules.Hevc.Pictures

/-- What tells a picture from the others: its decode index and its POC. -/
abbrev Key := Int × Int

def Picture.key (x : Picture) : Key := (x.decodeIdx, x.poc)

/-- The picture can be found by its POC. -/
def Picture.known (x : Picture) : Bool := x.live && x.poc ≠ INVALID_POC

/-- What `output_pic` sees of a picture, its mark apart. -/
def Picture.core (x : Picture) : Picture :=
  { x with
    mvBufIndex := none, width := 0, height := 0, sliceType := 0, vfRef := 0
    referenced := false, outputReady := false, outputMark := false }

/-- What is neither a picture, a buffer nor on its way out. -/
def State.rest (s : State) : State :=
  { s with
    mPIC := fun _ => {}, mBUF := fun _ => {}, mMvBUF := fun _ => {}, mvBufSize := 0
    fatalNoMem := false, interlaceFlag := false, vfPreCount := 0, firstOutputPoc := 0
    ignoreBufmgrError := 0, pbSkipCount := 0, handed := [] }

/-- The pictures that wait for their output. -/
def State.waitKeys (s : State) : List Key :=
  ((List.finRange _).filter fun p => (s.mPIC p).waiting).map fun p => (s.mPIC p).key

/-! ## Moves without output -/

/-- The pictures that wait are the same, and the others are the same or can no longer be found. -/
structure Rests (s t : State) : Prop where
  waiting : ∀ q, (s.mPIC q).waiting = true →
    (t.mPIC q).waiting = true ∧ (t.mPIC q).core = (s.mPIC q).core
  unmarked : ∀ q, (t.mPIC q).waiting = true → (s.mPIC q).waiting = true
  known : ∀ q, (t.mPIC q).known = true →
    (s.mPIC q).known = true ∧ (t.mPIC q).key = (s.mPIC q).key
  rest : t.rest = s.rest
  handed : t.handed = s.handed

/-- Every picture is the same to `output_pic`. -/
structure Stays (s t : State) : Prop where
  core : ∀ q, (t.mPIC q).core = (s.mPIC q).core
  mark : ∀ q, (t.mPIC q).outputMark = (s.mPIC q).outputMark
  rest : t.rest = s.rest
  handed : t.handed = s.handed

section Moves
variable {c : Config} {s t u : State} {p q : Pic} {x y : Picture}

theorem Rests.refl (s : State) : Rests s s :=
  ⟨fun _ h => ⟨h, rfl⟩, fun _ h => h, fun _ h => ⟨h, rfl⟩, rfl, rfl⟩

theorem Rests.trans (h1 : Rests s t) (h2 : Rests t u) : Rests s u := by
  refine ⟨fun q hq => ?_, fun q hq => h1.unmarked q (h2.unmarked q hq), fun q hq => ?_,
    h2.rest.trans h1.rest, h2.handed.trans h1.handed⟩
  · obtain ⟨ht, hcore⟩ := h1.waiting q hq
    obtain ⟨hu, hcore'⟩ := h2.waiting q ht
    exact ⟨hu, hcore'.trans hcore⟩
  · obtain ⟨ht, hkey⟩ := h2.known q hq
    obtain ⟨hs, hkey'⟩ := h1.known q ht
    exact ⟨hs, hkey.trans hkey'⟩

theorem key_of_core (h : y.core = x.core) : y.key = x.key := by
  show y.core.key = x.core.key
  rw [h]

theorem known_of_core (h : y.core = x.core) : y.known = x.known := by
  show y.core.known = x.core.known
  rw [h]

theorem waiting_of_core (h : y.core = x.core) (hmark : y.outputMark = x.outputMark) :
    y.waiting = x.waiting := by
  have hknown := known_of_core h
  rw [Picture.waiting, Picture.waiting, hmark]
  exact congrArg (· && x.outputMark) hknown

theorem Stays.refl (s : State) : Stays s s := ⟨fun _ => rfl, fun _ => rfl, rfl, rfl⟩

theorem Stays.trans (h1 : Stays s t) (h2 : Stays t u) : Stays s u :=
  ⟨fun q => (h2.core q).trans (h1.core q), fun q => (h2.mark q).trans (h1.mark q),
    h2.rest.trans h1.rest, h2.handed.trans h1.handed⟩

theorem Stays.waiting (h : Stays s t) (q : Pic) : (t.mPIC q).waiting = (s.mPIC q).waiting :=
  waiting_of_core (h.core q) (h.mark q)

theorem Stays.rests (h : Stays s t) : Rests s t :=
  ⟨fun q hq => ⟨(h.waiting q).trans hq, h.core q⟩, fun q hq => (h.waiting q).symm.trans hq,
    fun q hq => ⟨(known_of_core (h.core q)).symm.trans hq, key_of_core (h.core q)⟩, h.rest,
    h.handed⟩

theorem stays_setPic (hcore : y.core = (s.mPIC p).core)
    (hmark : y.outputMark = (s.mPIC p).outputMark) : Stays s (s.setPic p y) := by
  refine ⟨fun q => ?_, fun q => ?_, rfl, rfl⟩
  all_goals by_cases hqp : q = p
  · rw [hqp, setPic_self]
    exact hcore
  · rw [setPic_other s y hqp]
  · rw [hqp, setPic_self]
    exact hmark
  · rw [setPic_other s y hqp]

theorem stays_foldl {α : Type} {f : State → α → State} (h : ∀ s a, Stays s (f s a)) (l : List α)
    (s : State) : Stays s (l.foldl f s) := by
  induction l generalizing s with
  | nil => exact Stays.refl s
  | cons a l ih => exact (h s a).trans (ih (f s a))

theorem waitKeys_congr (hwait : ∀ q, (t.mPIC q).waiting = (s.mPIC q).waiting)
    (hkey : ∀ q, (t.mPIC q).waiting = true → (t.mPIC q).key = (s.mPIC q).key) :
    t.waitKeys = s.waitKeys := by
  have hfilter : ((List.finRange _).filter fun p => (t.mPIC p).waiting) =
      (List.finRange _).filter fun p => (s.mPIC p).waiting :=
    List.filter_congr fun p _ => hwait p
  rw [State.waitKeys, State.waitKeys, ← hfilter]
  exact List.map_congr_left fun p hp => hkey p (by simpa using hp)

theorem waitKeys_eq (h : Rests s t) : t.waitKeys = s.waitKeys :=
  waitKeys_congr
    (fun p => Bool.eq_iff_iff.mpr ⟨h.unmarked p, fun hp => (h.waiting p hp).1⟩)
    fun p hp => key_of_core (h.waiting p (h.unmarked p hp)).2

theorem SameButMv.stays (h : SameButMv s t) (hrest : t.rest = s.rest)
    (hhanded : t.handed = s.handed) : Stays s t := by
  refine ⟨fun q => ?_, fun q => ?_, hrest, hhanded⟩
  all_goals
    obtain ⟨j, hj⟩ := h q
    rw [hj]
  rfl

theorem putMvBuf_rest (s : State) (p : Pic) :
    (putMvBuf s p).rest = s.rest ∧ (putMvBuf s p).handed = s.handed := by
  unfold putMvBuf
  split
  · exact ⟨rfl, rfl⟩
  · dsimp only
    split <;> exact ⟨rfl, rfl⟩

theorem putMvBuf_stays (s : State) (p : Pic) : Stays s (putMvBuf s p) :=
  (putMvBuf_same s p).stays (putMvBuf_rest s p).1 (putMvBuf_rest s p).2

theorem releaseRef_stays (s : State) (p : Pic) : Stays s (releaseRef s p) :=
  (stays_setPic (y := { s.mPIC p with referenced := false }) rfl rfl).trans (putMvBuf_stays _ p)

theorem applyRefPicSet_stays (s : State) (curPoc : Int) (curRps : Fin 16 → UInt16) :
    Stays s (applyRefPicSet s curPoc curRps) := by
  refine stays_foldl (fun s p => ?_) _ s
  dsimp only
  split
  · exact releaseRef_stays s p
  · exact Stays.refl s

theorem clearReferencedFlag_stays (s : State) : Stays s (clearReferencedFlag s) := by
  refine stays_foldl (fun s p => ?_) _ s
  dsimp only
  split
  · exact releaseRef_stays s p
  · exact Stays.refl s

theorem interlaceClearNoPairPic_stays (s : State) : Stays s (interlaceClearNoPairPic s) := by
  rw [interlaceClearNoPairPic]
  split
  · refine ⟨fun q => ?_, fun q => ?_, rfl, rfl⟩
    all_goals
      dsimp only
      split <;> rfl
  · exact Stays.refl s

theorem pbSkip_stays (c : Config) (s : State) (p : Pic) : Stays s (pbSkip c s p) := by
  refine ⟨fun q => ?_, fun q => ?_, ?_, ?_⟩
  all_goals
    unfold pbSkip
    split <;> dsimp only <;> (repeat' split)
  all_goals rfl

theorem returnPic_stays (s : State) (p : Pic) (vfRef : Nat) (ready : Bool) :
    Stays s (returnPic s p vfRef ready) :=
  stays_setPic (y := { s.mPIC p with
    vfRef := vfRef, outputReady := (s.mPIC p).outputReady && ready }) rfl rfl

/-! ## The pool -/

/-- A picture is the same, or it was not needed and has no frame buffer now. -/
def Recycled (s t : State) : Prop := ∀ q, t.mPIC q = s.mPIC q ∨ ((t.mPIC q).bufIndex = none ∧
  ((s.mPIC q).idle = true ∨ ((s.mPIC q).created && (s.mPIC q).valid) = false))

theorem Recycled.refl (s : State) : Recycled s s := fun _ => Or.inl rfl

theorem Recycled.trans (h1 : Recycled s t) (h2 : Recycled t u) : Recycled s u := by
  intro q
  rcases h1 q with ht | ⟨hnone, hs⟩
  · rw [← ht]
    exact h2 q
  · rcases h2 q with hu | ⟨hnone', -⟩
    · exact Or.inr ⟨hu ▸ hnone, hs⟩
    · exact Or.inr ⟨hnone', hs⟩

theorem not_live (h : x.bufIndex = none) : x.live = false := by
  rw [Picture.live, h]
  simp

theorem not_waiting_of_unusable (h : x.idle = true ∨ (x.created && x.valid) = false) :
    x.waiting = false := by
  rcases h with h | h
  · simp only [Picture.idle, Bool.and_eq_true, Bool.not_eq_true'] at h
    simp [Picture.waiting, h.1.1.2]
  · simp [Picture.waiting, Picture.live, h]

theorem Recycled.rests (h : Recycled s t) (hrest : t.rest = s.rest)
    (hhanded : t.handed = s.handed) : Rests s t := by
  have hnone : ∀ q, (t.mPIC q).bufIndex = none →
      (t.mPIC q).waiting = false ∧ (t.mPIC q).known = false := fun q hq => by
    simp [Picture.waiting, Picture.known, not_live hq]
  refine ⟨fun q hq => ?_, fun q hq => ?_, fun q hq => ?_, hrest, hhanded⟩
  · rcases h q with hsame | ⟨-, hs⟩
    · rw [hsame]
      exact ⟨hq, rfl⟩
    · rw [not_waiting_of_unusable hs] at hq
      cases hq
  · rcases h q with hsame | ⟨hbuf, -⟩
    · exact hsame ▸ hq
    · rw [(hnone q hbuf).1] at hq
      cases hq
  · rcases h q with hsame | ⟨hbuf, -⟩
    · rw [hsame] at hq ⊢
      exact ⟨hq, rfl⟩
    · rw [(hnone q hbuf).2] at hq
      cases hq

/-- Pictures are recycled and nothing else happens. -/
structure Reuses (s t : State) : Prop where
  pics : Recycled s t
  rest : t.rest = s.rest
  handed : t.handed = s.handed

theorem Reuses.refl (s : State) : Reuses s s := ⟨Recycled.refl s, rfl, rfl⟩

theorem Reuses.trans (h1 : Reuses s t) (h2 : Reuses t u) : Reuses s u :=
  ⟨h1.pics.trans h2.pics, h2.rest.trans h1.rest, h2.handed.trans h1.handed⟩

theorem Reuses.rests (h : Reuses s t) : Rests s t := h.pics.rests h.rest h.handed

theorem reuses_setPic (hbuf : y.bufIndex = none)
    (hs : (s.mPIC p).idle = true ∨ ((s.mPIC p).created && (s.mPIC p).valid) = false) :
    Reuses s (s.setPic p y) := by
  refine ⟨fun q => ?_, rfl, rfl⟩
  by_cases hqp : q = p
  · rw [hqp, setPic_self]
    exact Or.inr ⟨hbuf, hs⟩
  · exact Or.inl (setPic_other s y hqp)

theorem setBufUnused_reuses (s : State) (o : Option BufIdx) : Reuses s (setBufUnused s o) := by
  cases o with
  | none => exact Reuses.refl s
  | some i => exact ⟨Recycled.refl s, rfl, rfl⟩

theorem releasePic_reuses (workPicNum : Nat) (a : State × Nat) (p : Pic) :
    Reuses a.1 (releasePic workPicNum a p).1 := by
  obtain ⟨s, count⟩ := a
  simp only [releasePic]
  split
  · split
    next hidle =>
      have hunused := setBufUnused_reuses s (s.mPIC p).bufIndex
      have hp : ((setBufUnused s (s.mPIC p).bufIndex).mPIC p).idle = true := by
        rw [setBufUnused_pic]
        simp only [Bool.and_eq_true] at hidle
        exact hidle.1
      split
      · exact hunused.trans (reuses_setPic rfl (Or.inl hp))
      · exact hunused.trans (reuses_setPic rfl (Or.inl hp))
    next => exact Reuses.refl s
  · exact Reuses.refl s

theorem usePics_reuses (workPicNum : Nat) : ∀ (l : List Pic) (count records : Nat) (s : State),
    Reuses s (usePics workPicNum l count records s)
  | [], _, _, s => Reuses.refl s
  | p :: ps, count, records, s => by
    rw [usePics]
    split
    · exact Reuses.refl s
    · by_cases hnew : (decide (count < workPicNum) && !(s.mPIC p).created) = true
      · have hp : ((s.mPIC p).created && (s.mPIC p).valid) = false := by
          simp only [Bool.and_eq_true, Bool.not_eq_true'] at hnew
          rw [hnew.2, Bool.false_and]
        simp only [if_pos hnew]
        rw [if_pos (show (picInit.created && !picInit.valid) = true from rfl)]
        split
        · exact reuses_setPic rfl (Or.inr hp)
        · exact (reuses_setPic rfl (Or.inr hp)).trans (usePics_reuses workPicNum ps _ _ _)
      · simp only [if_neg hnew]
        split
        next hspare =>
          have hp : ((s.mPIC p).created && (s.mPIC p).valid) = false := by
            simp only [Bool.and_eq_true, Bool.not_eq_true'] at hspare
            rw [hspare.2, Bool.and_false]
          split
          · exact reuses_setPic rfl (Or.inr hp)
          · exact (reuses_setPic rfl (Or.inr hp)).trans (usePics_reuses workPicNum ps _ _ _)
        next => exact usePics_reuses workPicNum ps _ _ _

theorem releasePics_reuses (workPicNum : Nat) (l : List Pic) (a : State × Nat) :
    Reuses a.1 (l.foldl (releasePic workPicNum) a).1 := by
  induction l generalizing a with
  | nil => exact Reuses.refl a.1
  | cons p ps ih => exact (releasePic_reuses workPicNum a p).trans (ih _)

theorem picListProcess_reuses (s : State) (workPicNum records : Nat) :
    Reuses s (picListProcess s workPicNum records) := by
  have h1 := releasePics_reuses workPicNum (List.finRange _) (s, 0)
  have h2 : ∀ u : State, Reuses u (deallocUnusedBuf u) := fun u => ⟨Recycled.refl u, rfl, rfl⟩
  unfold picListProcess
  dsimp only
  split
  · exact (h1.trans (usePics_reuses workPicNum _ _ _ _)).trans (h2 _)
  · exact h1.trans (h2 _)

/-! ## A new picture -/

theorem allocBuf_rest (s : State) (bufSize : Int) (alloc : Bool) :
    (allocBuf s bufSize alloc).2.rest = s.rest ∧
      (allocBuf s bufSize alloc).2.handed = s.handed := by
  unfold allocBuf
  split
  · exact ⟨rfl, rfl⟩
  · split
    · exact ⟨rfl, rfl⟩
    · split
      · split <;> exact ⟨rfl, rfl⟩
      · exact ⟨rfl, rfl⟩

theorem configPic_rest (s : State) (p : Pic) (bufSize : Int) :
    (configPic s p bufSize).2.rest = s.rest ∧ (configPic s p bufSize).2.handed = s.handed := by
  unfold configPic
  split <;> exact ⟨rfl, rfl⟩

theorem getMvBuf_rest (s : State) (p : Pic) (alloc : Bool) :
    (getMvBuf s p alloc).2.rest = s.rest ∧ (getMvBuf s p alloc).2.handed = s.handed := by
  have hresize : (resizeMvBufs s p).rest = s.rest ∧ (resizeMvBufs s p).handed = s.handed := by
    unfold resizeMvBufs
    dsimp only
    split <;> exact ⟨rfl, rfl⟩
  have hput := putMvBuf_rest (resizeMvBufs s p) p
  rw [hresize.1, hresize.2] at hput
  unfold getMvBuf
  generalize putMvBuf (resizeMvBufs s p) p = t at hput
  dsimp only
  split
  · exact hput
  · split
    · split <;> exact hput
    · exact hput

/-- A move that concerns only a picture that nothing waits for: it stays as it is, or can no longer
be found. -/
theorem rests_one (hs : (s.mPIC p).waiting = false) (hother : ∀ q, q ≠ p → t.mPIC q = s.mPIC q)
    (ht : (t.mPIC p).waiting = false)
    (hknown : (t.mPIC p).known = true →
      (s.mPIC p).known = true ∧ (t.mPIC p).key = (s.mPIC p).key)
    (hrest : t.rest = s.rest) (hhanded : t.handed = s.handed) : Rests s t := by
  refine ⟨fun q hq => ?_, fun q hq => ?_, fun q hq => ?_, hrest, hhanded⟩
  all_goals by_cases hqp : q = p
  · rw [hqp, hs] at hq
    cases hq
  · rw [hother q hqp]
    exact ⟨hq, rfl⟩
  · rw [hqp, ht] at hq
    cases hq
  · exact hother q hqp ▸ hq
  · rw [hqp] at hq ⊢
    exact hknown hq
  · rw [hother q hqp] at hq ⊢
    exact ⟨hq, rfl⟩

theorem not_marked_of_idle (h : x.idle = true) : x.outputMark = false := by
  simp only [Picture.idle, Bool.and_eq_true, Bool.not_eq_true'] at h
  exact h.1.1.2

theorem not_waiting (h : x.outputMark = false) : x.waiting = false := by
  rw [Picture.waiting, h, Bool.and_false]

/-- The frame buffer of a new picture. -/
theorem getBuf_rests (hfree : s.free p = true) (a : Allocs) :
    Rests s (getBuf s p a).2 ∧ ((getBuf s p a).2.mPIC p).outputMark = false ∧
      ((getBuf s p a).1 = true → ((getBuf s p a).2.mPIC p).live = true) := by
  have hidle := idle_of_free hfree
  have hmark := not_marked_of_idle hidle
  have hvalid : ((s.mPIC p).created && (s.mPIC p).valid) = true := by
    simp only [Picture.idle, Bool.and_eq_true] at hidle
    rw [hidle.1.1.1.1, hidle.1.1.1.2]
    rfl
  have hwait := not_waiting hmark
  unfold getBuf
  split
  next hbuf =>
    refine ⟨Rests.refl s, hmark, fun _ => ?_⟩
    rw [Picture.live, hvalid, Bool.true_and, Option.isSome_iff_ne_none]
    exact hbuf
  next hbuf =>
    have hnone : (s.mPIC p).bufIndex = none := not_not.mp hbuf
    obtain ⟨hpics, -, -⟩ := allocBuf_frame (fun _ => True) s a.bufSize a.buf
    obtain ⟨hrest, hhanded⟩ := allocBuf_rest s a.bufSize a.buf
    generalize allocBuf s a.bufSize a.buf = r at hpics hrest hhanded
    obtain ⟨ok, t⟩ := r
    dsimp only at hpics hrest hhanded ⊢
    have ht : Rests s t := Stays.rests
      ⟨fun q => by rw [hpics], fun q => by rw [hpics], hrest, hhanded⟩
    cases ok with
    | false =>
      refine ⟨ht, ?_, fun hok => by cases hok⟩
      show (t.mPIC p).outputMark = false
      rw [hpics]
      exact hmark
    | true =>
      rw [if_pos rfl]
      rcases configPic_spec t p a.bufSize with hfail | ⟨u, hok, -, hother, ⟨i, hi⟩, -⟩
      · rw [hfail]
        dsimp only
        rw [if_neg Bool.false_ne_true, deallocPicBuf_none (by rw [hpics]; exact hnone)]
        refine ⟨ht.trans ?_, ?_, fun hok => by cases hok⟩
        · have hself : ({ t.mPIC p with bufIndex := none } : Picture) = t.mPIC p := by
            rw [← hnone, ← hpics]
          rw [hself]
          exact (stays_setPic rfl rfl).rests
        · rw [setPic_self, hpics]
          exact hmark
      · have hconfig := configPic_rest t p a.bufSize
        rw [hok] at hconfig ⊢
        dsimp only at hconfig ⊢
        rw [if_pos rfl]
        have hunknown : ∀ w h : Nat, ({ u.mPIC p with width := w, height := h } : Picture).known =
            false := fun w h => by
          rw [hi]
          simp [Picture.known]
        refine ⟨?_, ?_, fun _ => ?_⟩
        · refine rests_one hwait (fun q hq => ?_) ?_ (fun hk => ?_) (hconfig.1.trans hrest)
            (hconfig.2.trans hhanded)
          · rw [setPic_other _ _ hq, hother q hq, hpics]
          · rw [setPic_self, hi, hpics]
            exact not_waiting hmark
          · rw [setPic_self, hunknown] at hk
            cases hk
        · rw [setPic_self, hi, hpics]
          exact hmark
        · rw [setPic_self, hi, hpics]
          show ((s.mPIC p).created && (s.mPIC p).valid && true) = true
          rw [hvalid]
          rfl

/-- A failed attempt leaves the pictures that wait alone; a successful one takes a picture that
nothing waits for. -/
theorem getNewPic_rests (c : Config) (s : State) (a : Allocs) :
    ((getNewPic c s a).1 = none ∧ Rests s (getNewPic c s a).2) ∨
      ∃ p t, getNewPic c s a = (some p, startPic c t p) ∧ Rests s t ∧
        (t.mPIC p).live = true ∧ (t.mPIC p).outputMark = false := by
  unfold getNewPic
  cases hp : freePic s with
  | none => exact Or.inl ⟨rfl, Rests.refl s⟩
  | some p =>
    obtain ⟨hbuf, hmark, hlive⟩ := getBuf_rests (freePic_free hp) a
    dsimp only
    generalize getBuf s p a = r at hbuf hmark hlive
    obtain ⟨ok, t⟩ := r
    dsimp only at hbuf hmark hlive ⊢
    cases ok with
    | false => exact Or.inl ⟨rfl, hbuf⟩
    | true =>
      rw [if_pos rfl]
      have hsame := getMvBuf_same t p a.mv
      have hrests := (hsame.stays (getMvBuf_rest t p a.mv).1 (getMvBuf_rest t p a.mv).2).rests
      generalize getMvBuf t p a.mv = r at hsame hrests
      obtain ⟨ok, u⟩ := r
      dsimp only at hsame hrests ⊢
      cases ok with
      | false => exact Or.inl ⟨rfl, hbuf.trans hrests⟩
      | true =>
        rw [if_pos rfl]
        split
        · refine Or.inr ⟨p, u, rfl, hbuf.trans hrests, ?_, ?_⟩
          · rw [hsame.field Picture.live (fun _ _ => rfl) p]
            exact hlive rfl
          · rw [hsame.field Picture.outputMark (fun _ _ => rfl) p]
            exact hmark
        · exact Or.inl ⟨rfl, (hbuf.trans hrests).trans (putMvBuf_stays u p).rests⟩

end Moves

end MediaModules.Hevc.Pictures
