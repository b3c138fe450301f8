import MediaModules.Hevc.PicturePool
import MediaModules.Lib.Holdings
import MediaModules.Lib.Run
import Mathlib.Data.Fintype.Basic

/-!
# The buffers of the HEVC pictures

Every used buffer belongs to exactly one picture, and a picture that is needed keeps its frame
buffer, as long as `pic_list_process` makes no new picture and `get_new_pic` does not change the
size of the motion-vector buffers while there are references.
-/
namespace MediaModules.Hevc.Pictures

open MediaModules.Lib.Holdings MediaModules.Lib.Run MediaModules.Lib.Select

/-! ## The books -/

/-- The picture is referenced, marked for output or on its way to the display. -/
def Picture.busy (x : Picture) : Bool := x.referenced || x.outputMark || x.outputReady

/-- The books of the buffers: who holds a frame buffer, and which pictures, those that `hold`, have
a motion-vector buffer. -/
structure Booked (hold : Pic → Prop) (x : Pic → Picture) (b : BufIdx → Buf) (v : MvIdx → MvBuf) :
    Prop where
  bufs : Owns (fun p => (x p).bufIndex) (Finset.univ.filter fun i => (b i).used = true)
  mvs : Owns (fun p => (x p).mvBufIndex) (Finset.univ.filter fun j => (v j).used = true)
  bufAllocated : ∀ i, (b i).used = true → (b i).allocated = true
  mvAllocated : ∀ j, (v j).used = true → (v j).allocated = true
  mvHeld : ∀ p, (x p).mvBufIndex ≠ none ↔ hold p
  busy : ∀ p, (x p).busy = true → (x p).bufIndex ≠ none
  spare : ∀ p, ((x p).created && (x p).valid) = false → (x p).bufIndex = none

/-- The books of a state. -/
def State.Books (s : State) (hold : Pic → Prop) : Prop := Booked hold s.mPIC s.mBUF s.mMvBUF

/-- The books of a state between two calls: the references have the motion-vector buffers. -/
def State.Sound (s : State) : Prop := s.Books fun p => (s.mPIC p).referenced = true

section Updates
variable {hold : Pic → Prop} {x : Pic → Picture} {b : BufIdx → Buf} {v : MvIdx → MvBuf} {p : Pic}
  {y : Picture} {i : BufIdx} {j : MvIdx}

theorem field_update {α : Type} (f : Picture → α) (x : Pic → Picture) (p : Pic) (y : Picture) :
    (fun q => f (if q = p then y else x q)) = Function.update (fun q => f (x q)) p (f y) := by
  funext q
  by_cases h : q = p
  · rw [if_pos h, h, Function.update_self]
  · rw [if_neg h, Function.update_of_ne h]

theorem field_same {α : Type} {f : Picture → α} (h : f y = f (x p)) :
    (fun q => f (if q = p then y else x q)) = fun q => f (x q) := by
  rw [field_update, h]
  exact Function.update_eq_self p _

/-- An entry that becomes used. -/
theorem filter_insert {n : Nat} {β : Type} (f : β → Bool) (u : Fin n → β) (k : Fin n) {z : β}
    (hz : f z = true) : (Finset.univ.filter fun m => f (if m = k then z else u m) = true) =
      insert k (Finset.univ.filter fun m => f (u m) = true) := by
  ext m
  by_cases h : m = k
  · simp [h, hz]
  · simp [h]

/-- An entry that becomes unused. -/
theorem filter_erase {n : Nat} {β : Type} (f : β → Bool) (u : Fin n → β) (k : Fin n) {z : β}
    (hz : f z = false) : (Finset.univ.filter fun m => f (if m = k then z else u m) = true) =
      (Finset.univ.filter fun m => f (u m) = true).erase k := by
  ext m
  by_cases h : m = k
  · simp [h, hz]
  · simp [h]

theorem Booked.congr {hold' : Pic → Prop} (h : Booked hold x b v) (heq : ∀ p, hold p ↔ hold' p) :
    Booked hold' x b v :=
  { h with mvHeld := fun p => (h.mvHeld p).trans (heq p) }

theorem Booked.update {hold' : Pic → Prop} {b' : BufIdx → Buf} {v' : MvIdx → MvBuf}
    (h : Booked hold x b v)
    (hbufs : Owns (Function.update (fun q => (x q).bufIndex) p y.bufIndex)
      (Finset.univ.filter fun k => (b' k).used = true))
    (hmvs : Owns (Function.update (fun q => (x q).mvBufIndex) p y.mvBufIndex)
      (Finset.univ.filter fun k => (v' k).used = true))
    (hb : ∀ k, (b' k).used = true → (b' k).allocated = true)
    (hv : ∀ k, (v' k).used = true → (v' k).allocated = true)
    (hheld : y.mvBufIndex ≠ none ↔ hold' p) (hother : ∀ q, q ≠ p → (hold q ↔ hold' q))
    (hbusy : y.busy = true → y.bufIndex ≠ none)
    (hspare : (y.created && y.valid) = false → y.bufIndex = none) :
    Booked hold' (fun q => if q = p then y else x q) b' v' := by
  refine ⟨?_, ?_, hb, hv, fun q => ?_, fun q hq => ?_, fun q hq => ?_⟩
  · rw [field_update]
    exact hbufs
  · rw [field_update]
    exact hmvs
  all_goals
    by_cases hqp : q = p
    · simp only [if_pos hqp] at *
      first | exact hqp ▸ hheld | exact hbusy hq | exact hspare hq
    · simp only [if_neg hqp] at *
      first | exact (h.mvHeld q).trans (hother q hqp) | exact h.busy q hq | exact h.spare q hq

/-- A change of a picture that leaves its buffers alone. -/
theorem Booked.setPic (h : Booked hold x b v) (hbuf : y.bufIndex = (x p).bufIndex)
    (hmv : y.mvBufIndex = (x p).mvBufIndex) (hbusy : y.busy = true → (x p).bufIndex ≠ none)
    (hspare : (y.created && y.valid) = false → (x p).bufIndex = none) :
    Booked hold (fun q => if q = p then y else x q) b v := by
  refine h.update ?_ ?_ h.bufAllocated h.mvAllocated ?_ (fun _ _ => Iff.rfl) (hbuf ▸ hbusy)
    (hbuf ▸ hspare)
  · rw [hbuf, Function.update_eq_self p fun q => (x q).bufIndex]
    exact h.bufs
  · rw [hmv, Function.update_eq_self p fun q => (x q).mvBufIndex]
    exact h.mvs
  · rw [hmv]
    exact h.mvHeld p

/-- A picture gives its motion-vector buffer up. -/
theorem Booked.dropMv (h : Booked hold x b v) (hj : (x p).mvBufIndex = some j) :
    Booked (fun q => q ≠ p ∧ hold q)
      (fun q => if q = p then { x p with mvBufIndex := none } else x q) b
      (fun k => if k = j then { v j with used := false } else v k) := by
  refine h.update ?_ ?_ h.bufAllocated (fun k hk => ?_)
    (iff_of_false (fun hne => hne rfl) fun hp => hp.1 rfl)
    (fun q hqp => ⟨fun hq => ⟨hqp, hq⟩, And.right⟩) (h.busy p) (h.spare p)
  · rw [Function.update_eq_self p fun q => (x q).bufIndex]
    exact h.bufs
  · rw [filter_erase MvBuf.used _ _ rfl]
    exact h.mvs.drop hj
  · by_cases hkj : k = j
    · rw [if_pos hkj] at hk
      cases hk
    · rw [if_neg hkj] at hk ⊢
      exact h.mvAllocated k hk

/-- A picture without a motion-vector buffer takes one that is not in use. -/
theorem Booked.takeMv (h : Booked hold x b v) (hnone : (x p).mvBufIndex = none)
    (hj : (v j).used = false) :
    Booked (fun q => q = p ∨ hold q)
      (fun q => if q = p then { x p with mvBufIndex := some j } else x q) b
      (fun k => if k = j then ⟨true, true⟩ else v k) := by
  refine h.update ?_ ?_ h.bufAllocated (fun k hk => ?_)
    (iff_of_true (Option.some_ne_none j) (Or.inl rfl))
    (fun q hqp => ⟨Or.inr, fun hq => hq.resolve_left hqp⟩) (h.busy p) (h.spare p)
  · rw [Function.update_eq_self p fun q => (x q).bufIndex]
    exact h.bufs
  · rw [filter_insert MvBuf.used _ _ rfl]
    apply h.mvs.take hnone
    simp [hj]
  · by_cases hkj : k = j
    · rw [if_pos hkj]
    · rw [if_neg hkj] at hk ⊢
      exact h.mvAllocated k hk

/-- A picture that is not busy gives its frame buffer up. -/
theorem Booked.dropBuf (h : Booked hold x b v) (hi : (x p).bufIndex = some i)
    (hbuf : y.bufIndex = none) (hmv : y.mvBufIndex = (x p).mvBufIndex) (hidle : y.busy = false) :
    Booked hold (fun q => if q = p then y else x q)
      (fun k => if k = i then { b i with used := false } else b k) v := by
  refine h.update ?_ ?_ (fun k hk => ?_) h.mvAllocated ?_ (fun _ _ => Iff.rfl)
    (fun hy => by rw [hidle] at hy; cases hy) fun _ => hbuf
  · rw [hbuf, filter_erase Buf.used _ _ rfl]
    exact h.bufs.drop hi
  · rw [hmv, Function.update_eq_self p fun q => (x q).mvBufIndex]
    exact h.mvs
  · by_cases hki : k = i
    · rw [if_pos hki] at hk
      cases hk
    · rw [if_neg hki] at hk ⊢
      exact h.bufAllocated k hk
  · rw [hmv]
    exact h.mvHeld p

/-- A valid picture without a frame buffer takes one that is allocated and not in use. -/
theorem Booked.takeBuf (h : Booked hold x b v) (hnone : (x p).bufIndex = none)
    (hi : (b i).used = false) (halloc : (b i).allocated = true) (hbuf : y.bufIndex = some i)
    (hmv : y.mvBufIndex = (x p).mvBufIndex) (hvalid : (y.created && y.valid) = true) :
    Booked hold (fun q => if q = p then y else x q)
      (fun k => if k = i then { b i with used := true } else b k) v := by
  refine h.update ?_ ?_ (fun k hk => ?_) h.mvAllocated ?_ (fun _ _ => Iff.rfl)
    (fun _ => hbuf ▸ Option.some_ne_none i) (fun hy => by rw [hvalid] at hy; cases hy)
  · rw [hbuf, filter_insert Buf.used _ _ rfl]
    apply h.bufs.take hnone
    simp [hi]
  · rw [hmv, Function.update_eq_self p fun q => (x q).mvBufIndex]
    exact h.mvs
  · by_cases hki : k = i
    · rw [if_pos hki]
      exact halloc
    · rw [if_neg hki] at hk ⊢
      exact h.bufAllocated k hk
  · rw [hmv]
    exact h.mvHeld p

/-- A change of the frame buffers that are not in use. -/
theorem Booked.setBufs {b' : BufIdx → Buf} (h : Booked hold x b v)
    (hused : ∀ k, (b' k).used = (b k).used)
    (halloc : ∀ k, (b k).used = true → (b k).allocated = true → (b' k).allocated = true) :
    Booked hold x b' v := by
  have hsame : (Finset.univ.filter fun k => (b' k).used = true) =
      Finset.univ.filter fun k => (b k).used = true :=
    Finset.filter_congr fun k _ => by rw [hused]
  refine { h with bufs := hsame ▸ h.bufs, bufAllocated := fun k hk => ?_ }
  rw [hused] at hk
  exact halloc k hk (h.bufAllocated k hk)

end Updates

/-! ## Moves that leave the frame buffers where they are -/

/-- The books stay sound and every picture keeps its frame buffer. -/
def Keeps (s t : State) : Prop :=
  (s.Sound → t.Sound) ∧ ∀ p, (t.mPIC p).bufIndex = (s.mPIC p).bufIndex

section Moves
variable {s t u : State} {p q : Pic} {c : Config} {hold : Pic → Prop}

theorem Keeps.refl (s : State) : Keeps s s := ⟨id, fun _ => rfl⟩

theorem Keeps.trans (h1 : Keeps s t) (h2 : Keeps t u) : Keeps s u :=
  ⟨fun hs => h2.1 (h1.1 hs), fun p => (h2.2 p).trans (h1.2 p)⟩

theorem Keeps.foldl {α : Type} {f : State → α → State} (h : ∀ s a, Keeps s (f s a)) (l : List α)
    (s : State) : Keeps s (l.foldl f s) := by
  induction l generalizing s with
  | nil => exact Keeps.refl s
  | cons a l ih => exact (h s a).trans (ih (f s a))

theorem Keeps.holds (h : Keeps s t) (hp : (s.mPIC p).bufIndex ≠ none) :
    (t.mPIC p).bufIndex ≠ none := by
  rw [h.2 p]
  exact hp

theorem sound_setPic {y : Picture} (h : s.Sound) (hbuf : y.bufIndex = (s.mPIC p).bufIndex)
    (hmv : y.mvBufIndex = (s.mPIC p).mvBufIndex) (href : y.referenced = (s.mPIC p).referenced)
    (hbusy : y.busy = true → (s.mPIC p).bufIndex ≠ none)
    (hspare : (y.created && y.valid) = false → (s.mPIC p).bufIndex = none) :
    (s.setPic p y).Sound :=
  (Booked.setPic h hbuf hmv hbusy hspare).congr fun q => by
    rw [← congrFun (field_same (f := Picture.referenced) href) q]
    rfl

/-- A change that the books do not look at. -/
theorem keeps_setPic {y : Picture} (hbuf : y.bufIndex = (s.mPIC p).bufIndex)
    (hmv : y.mvBufIndex = (s.mPIC p).mvBufIndex) (href : y.referenced = (s.mPIC p).referenced)
    (hbusy : y.busy = true → (s.mPIC p).busy = true ∨ (s.mPIC p).bufIndex ≠ none)
    (hcreated : y.created = (s.mPIC p).created) (hvalid : y.valid = (s.mPIC p).valid) :
    Keeps s (s.setPic p y) := by
  refine ⟨fun h => ?_, fun q => congrFun (field_same hbuf) q⟩
  exact sound_setPic h hbuf hmv href (fun hy => (hbusy hy).elim (h.busy p) id)
    fun hy => h.spare p (by rw [← hcreated, ← hvalid]; exact hy)

theorem putMvBuf_none (h : (s.mPIC p).mvBufIndex = none) : putMvBuf s p = s := by
  rw [putMvBuf, h]

theorem Picture.setMv_self {x : Picture} {j : Option MvIdx} (h : x.mvBufIndex = j) :
    { x with mvBufIndex := j } = x := by
  cases h
  rfl

theorem putMvBuf_pic (s : State) (p q : Pic) : (putMvBuf s p).mPIC q =
    if q = p then { s.mPIC p with mvBufIndex := none } else s.mPIC q := by
  cases h : (s.mPIC p).mvBufIndex with
  | none =>
    rw [putMvBuf_none h]
    by_cases hqp : q = p
    · rw [if_pos hqp, Picture.setMv_self h, hqp]
    · rw [if_neg hqp]
  | some j =>
    rw [putMvBuf, h]
    dsimp only
    split <;> rfl

theorem putMvBuf_books (h : s.Books hold) (p : Pic) :
    (putMvBuf s p).Books fun q => q ≠ p ∧ hold q := by
  cases hj : (s.mPIC p).mvBufIndex with
  | none =>
    rw [putMvBuf_none hj]
    refine h.congr fun q => ⟨fun hq => ⟨fun hqp => ?_, hq⟩, And.right⟩
    exact (h.mvHeld q).mpr hq (hqp ▸ hj)
  | some j =>
    have hused : (s.mMvBUF j).used = true := by
      have hmem := h.mvs.live_of_held p j hj
      simpa using hmem
    rw [putMvBuf, hj]
    dsimp only
    rw [if_pos (by rw [hused, h.mvAllocated j hused]; rfl)]
    exact h.dropMv hj

theorem releaseRef_pic (s : State) (p q : Pic) : (releaseRef s p).mPIC q =
    if q = p then { s.mPIC p with referenced := false, mvBufIndex := none } else s.mPIC q := by
  rw [releaseRef, putMvBuf_pic]
  by_cases h : q = p
  · rw [if_pos h, if_pos h]
    show ({ (if p = p then _ else _ : Picture) with mvBufIndex := none } : Picture) = _
    rw [if_pos rfl]
  · rw [if_neg h, if_neg h]
    exact if_neg h

theorem releaseRef_keeps (s : State) (p : Pic) : Keeps s (releaseRef s p) := by
  refine ⟨fun h => ?_, fun q => ?_⟩
  · have hunref := Booked.setPic (p := p) (y := { s.mPIC p with referenced := false }) h rfl rfl
      (fun hy => h.busy p (by simp only [Picture.busy, Bool.or_eq_true] at hy ⊢; tauto)) (h.spare p)
    refine (putMvBuf_books (s := s.setPic p { s.mPIC p with referenced := false }) hunref p).congr
      fun q => ?_
    rw [releaseRef_pic]
    by_cases hqp : q = p
    · rw [if_pos hqp]
      exact iff_of_false (fun hq => hq.1 hqp) Bool.false_ne_true
    · rw [if_neg hqp]
      exact ⟨And.right, fun hq => ⟨hqp, hq⟩⟩
  · rw [releaseRef_pic]
    by_cases hqp : q = p
    · rw [if_pos hqp, hqp]
    · rw [if_neg hqp]

theorem applyRefPicSet_keeps (s : State) (curPoc : Int) (curRps : Fin 16 → UInt16) :
    Keeps s (applyRefPicSet s curPoc curRps) := by
  refine Keeps.foldl (fun s p => ?_) _ s
  dsimp only
  split
  · exact releaseRef_keeps s p
  · exact Keeps.refl s

theorem clearReferencedFlag_keeps (s : State) : Keeps s (clearReferencedFlag s) := by
  refine Keeps.foldl (fun s p => ?_) _ s
  dsimp only
  split
  · exact releaseRef_keeps s p
  · exact Keeps.refl s

theorem bufIndex_of_live {x : Picture} (h : x.live = true) : x.bufIndex ≠ none := by
  simp only [Picture.live, Bool.and_eq_true, Option.isSome_iff_ne_none] at h
  exact h.2

theorem live_of_waiting {x : Picture} (h : x.waiting = true) : x.live = true := by
  simp only [Picture.waiting, Bool.and_eq_true] at h
  exact h.1.1

theorem getPicByPOC_live {poc : Int} (h : getPicByPOC s poc = some p) :
    (s.mPIC p).live = true ∧ (s.mPIC p).poc = poc := by
  rw [getPicByPOC] at h
  split at h
  · cases h
  · rcases mem_of_foldl_pick h with hnone | ⟨-, hok⟩
    · cases hnone
    · simpa using hok

theorem firstDecoded_live (h : firstDecoded s = some p) : (s.mPIC p).live = true := by
  rcases mem_of_foldl_pick h with hnone | ⟨-, hok⟩
  · cases hnone
  · exact live_of_waiting hok

theorem markPic_keeps (h : (s.mPIC p).bufIndex ≠ none) : Keeps s (markPic s p) :=
  keeps_setPic rfl rfl rfl (fun _ => Or.inr h) rfl rfl

theorem readyPic_keeps (h : (s.mPIC p).bufIndex ≠ none) : Keeps s (readyPic s p) :=
  keeps_setPic rfl rfl rfl (fun _ => Or.inr h) rfl rfl

theorem pbSkip_keeps (c : Config) (s : State) (p : Pic) : Keeps s (pbSkip c s p) := by
  unfold pbSkip
  split <;> dsimp only <;> (repeat' split) <;> exact Keeps.refl s

theorem afterFirst_keeps (s : State) (flush : Bool) (p : Pic) :
    Keeps s (afterFirst s flush p).2 ∧ ∀ q, (afterFirst s flush p).1 = some q → q = p := by
  unfold afterFirst
  split
  · dsimp only
    split
    · exact ⟨Keeps.refl s, fun q hq => by cases hq⟩
    · split
      · refine ⟨?_, fun q hq => (Option.some.inj hq).symm⟩
        exact keeps_setPic (s := { s with firstPicFlag := 2 }) rfl rfl rfl Or.inl rfl rfl
      · exact ⟨Keeps.refl s, fun q hq => (Option.some.inj hq).symm⟩
  · exact ⟨Keeps.refl s, fun q hq => (Option.some.inj hq).symm⟩

theorem fastOutput_keeps (c : Config) (s : State) : Keeps s (fastOutput c s).1 ∧
    ∀ p, (fastOutput c s).2.1 = some p → (s.mPIC p).bufIndex ≠ none := by
  unfold fastOutput
  generalize List.finRange MAX_REF_PIC_NUM = l
  refine List.foldlRecOn l _ (motive := fun a : State × Option Pic × Bool =>
    Keeps s a.1 ∧ ∀ p, a.2.1 = some p → (s.mPIC p).bufIndex ≠ none)
    ⟨Keeps.refl s, fun p hp => by cases hp⟩ fun a ⟨hkeeps, hbuf⟩ p _ => ?_
  split
  next hfast =>
    have hlive : (a.1.mPIC p).bufIndex ≠ none := by
      simp only [State.fastFirst, Bool.and_eq_true] at hfast
      exact bufIndex_of_live hfast.1.1.1.1
    refine ⟨hkeeps.trans ?_, fun q hq => ?_⟩
    · have hpic := keeps_setPic (s := a.1) (p := p) (y := { a.1.mPIC p with numReorderPic := 0 })
        rfl rfl rfl Or.inl rfl rfl
      exact ⟨hpic.1, hpic.2⟩
    · dsimp only at hq
      split at hq
      · cases hq
        rw [← hkeeps.2 p]
        exact hlive
      · exact hbuf q hq
  next => exact ⟨hkeeps, hbuf⟩

theorem lowestPoc_live {first : Option Pic} (h : lowestPoc s first = some p) :
    first = some p ∨ (s.mPIC p).waiting = true := by
  rcases mem_of_foldl_pick h with hfirst | ⟨-, hok⟩
  · exact Or.inl hfirst
  · exact Or.inr hok

/-- What `output_pic` hands out has a frame buffer. -/
theorem outputPic_keeps (c : Config) (s : State) (flush : Bool) :
    Keeps s (outputPic c s flush).2 ∧
      ∀ p, (outputPic c s flush).1 = some p → (s.mPIC p).bufIndex ≠ none := by
  unfold outputPic
  split
  · cases hp : firstDecoded s with
    | none => exact ⟨Keeps.refl s, fun p hp => by cases hp⟩
    | some p =>
      have hbuf := bufIndex_of_live (firstDecoded_live hp)
      obtain ⟨hafter, hsame⟩ := afterFirst_keeps (releaseRef (readyPic s p) p) flush p
      refine ⟨((readyPic_keeps hbuf).trans (releaseRef_keeps _ p)).trans hafter, fun q hq => ?_⟩
      rw [hsame q hq]
      exact hbuf
  · obtain ⟨hfast, hfirst⟩ := fastOutput_keeps c s
    obtain ⟨r, hr⟩ : ∃ r, fastOutput c s = r := ⟨_, rfl⟩
    rw [hr] at hfast hfirst
    obtain ⟨t, first, fast⟩ := r
    simp only [hr]
    cases hp : lowestPoc t first with
    | none => exact ⟨hfast, fun p hp => by cases hp⟩
    | some p =>
      have hbuf : (s.mPIC p).bufIndex ≠ none := by
        rcases lowestPoc_live hp with h | h
        · exact hfirst p h
        · rw [← hfast.2 p]
          exact bufIndex_of_live (live_of_waiting h)
      dsimp only
      split
      · exact ⟨hfast, fun p hp => by cases hp⟩
      · split
        · exact ⟨hfast, fun p hp => by cases hp⟩
        · split
          · obtain ⟨hafter, hsame⟩ := afterFirst_keeps (readyPic t p) flush p
            refine ⟨(hfast.trans (readyPic_keeps (hfast.holds hbuf))).trans hafter, fun q hq => ?_⟩
            rw [hsame q hq]
            exact hbuf
          · exact ⟨hfast, fun p hp => by cases hp⟩

theorem prepareDisplayBuf_keeps (c : Config) (h : (s.mPIC p).bufIndex ≠ none) :
    Keeps s (prepareDisplayBuf c s p) := by
  have hpic := keeps_setPic (s := s) (p := p) (y := { s.mPIC p with
    vfRef := (c.display (s.mPIC p)).vfRef, outputReady := (c.display (s.mPIC p)).ready })
    rfl rfl rfl (fun _ => Or.inr h) rfl rfl
  exact ⟨hpic.1, hpic.2⟩

theorem showPic_keeps (c : Config) (flush : Nat) (ones : Bool) (h : (s.mPIC p).bufIndex ≠ none) :
    Keeps s (showPic c s flush ones p) := by
  have hfirst : Keeps s (if flush = 2 then releaseRef s p else s) := by
    split
    · exact releaseRef_keeps s p
    · exact Keeps.refl s
  have hidden : ∀ t : State, Keeps t (t.setPic p { t.mPIC p with outputReady := false }) := by
    refine fun t => keeps_setPic rfl rfl rfl (fun hy => Or.inl ?_) rfl rfl
    simp only [Picture.busy, Bool.or_eq_true] at hy ⊢
    exact Or.inl (hy.resolve_right Bool.false_ne_true)
  unfold showPic
  apply hfirst.trans
  generalize hu : (if flush = 2 then releaseRef s p else s) = u
  have hbuf : (u.mPIC p).bufIndex ≠ none := (hu ▸ hfirst).holds h
  dsimp only
  split
  · exact hidden u
  · split
    · exact hidden u
    · split
      · exact prepareDisplayBuf_keeps c hbuf
      · exact prepareDisplayBuf_keeps c hbuf

theorem outputLoop_keeps (c : Config) (flush : Nat) (ones : Bool) (rounds : Nat) (s : State) :
    Keeps s (outputLoop c flush ones rounds s) := by
  induction rounds generalizing s with
  | zero => exact Keeps.refl s
  | succ rounds ih =>
    obtain ⟨hkeeps, hbuf⟩ := outputPic_keeps c s (flush ≠ 0)
    unfold outputLoop
    obtain ⟨⟨o, t⟩, hr⟩ : ∃ r, outputPic c s (flush ≠ 0) = r := ⟨_, rfl⟩
    rw [hr] at hkeeps hbuf ⊢
    cases o with
    | none => exact hkeeps
    | some p =>
      have hshow := hkeeps.trans (showPic_keeps c flush ones (hkeeps.holds (hbuf p rfl)))
      dsimp only
      split
      · exact hshow
      · exact hshow.trans (ih _)

theorem outputPicDisplay_keeps (c : Config) (s : State) (flush : Nat) (ones : Bool) :
    Keeps s (outputPicDisplay c s flush ones) := outputLoop_keeps c flush ones _ s

/-- A change of every picture that the books do not look at. -/
theorem keeps_map {g : Picture → Picture} (hbuf : ∀ x, (g x).bufIndex = x.bufIndex)
    (hmv : ∀ x, (g x).mvBufIndex = x.mvBufIndex) (href : ∀ x, (g x).referenced = x.referenced)
    (hbusy : ∀ x, (g x).busy = true → x.busy = true) (hcreated : ∀ x, (g x).created = x.created)
    (hvalid : ∀ x, (g x).valid = x.valid) :
    Keeps s { s with mPIC := fun p => g (s.mPIC p) } := by
  refine ⟨fun h => ?_, fun p => hbuf _⟩
  refine ⟨?_, ?_, h.bufAllocated, h.mvAllocated, fun p => ?_, fun p hp => ?_, fun p hp => ?_⟩
  · simp only [hbuf]
    exact h.bufs
  · simp only [hmv]
    exact h.mvs
  · simp only [hmv, href]
    exact h.mvHeld p
  · simp only [hbuf]
    exact h.busy p (hbusy _ hp)
  · simp only [hcreated, hvalid] at hp
    simp only [hbuf]
    exact h.spare p hp

theorem interlaceClearNoPairPic_keeps (s : State) : Keeps s (interlaceClearNoPairPic s) := by
  unfold interlaceClearNoPairPic
  split
  · refine keeps_map (g := fun x => if x.created && x.valid && x.vfRef == 1
      then { x with vfRef := 0, outputReady := false } else x) ?_ ?_ ?_ ?_ ?_ ?_
    all_goals
      intro x
      split
    any_goals rfl
    · intro hx
      simp only [Picture.busy, Bool.or_eq_true] at hx ⊢
      exact Or.inl (hx.resolve_right Bool.false_ne_true)
    · exact id
  · exact Keeps.refl s

/-- The end of `flush_output`. -/
theorem flushed_keeps (c : Config) (s : State) :
    Keeps s (interlaceClearNoPairPic (clearReferencedFlag (outputPicDisplay c s 2 false))) :=
  ((outputPicDisplay_keeps c s 2 false).trans (clearReferencedFlag_keeps _)).trans
    (interlaceClearNoPairPic_keeps _)

theorem flushOutput_keeps (c : Config) {pic : Option Pic}
    (h : ∀ p, pic = some p → (s.mPIC p).bufIndex ≠ none) : Keeps s (flushOutput c s pic) := by
  cases pic with
  | none => exact flushed_keeps c s
  | some p =>
    have hskip := pbSkip_keeps c s p
    simp only [flushOutput]
    split
    · exact (hskip.trans (markPic_keeps (hskip.holds (h p rfl)))).trans (flushed_keeps c _)
    · exact hskip.trans (flushed_keeps c _)

theorem setMarks_keeps (s : State) (p : Pic) (m : Marks) : Keeps s (setMarks s p m) :=
  keeps_setPic rfl rfl rfl Or.inl rfl rfl

theorem returnPic_keeps (s : State) (p : Pic) (vfRef : Nat) (ready : Bool) :
    Keeps s (returnPic s p vfRef ready) := by
  refine keeps_setPic rfl rfl rfl (fun hy => Or.inl ?_) rfl rfl
  simp only [Picture.busy, Bool.or_eq_true, Bool.and_eq_true] at hy ⊢
  exact hy.imp_right And.left

theorem hevcPrePic_keeps (c : Config) (s : State) : Keeps s (hevcPrePic c s) := by
  have hread : Keeps s (if c.mInsFlag then { s with decodedPoc := INVALID_POC } else s) := by
    split <;> exact Keeps.refl s
  unfold hevcPrePic
  apply hread.trans
  generalize (if c.mInsFlag then { s with decodedPoc := INVALID_POC } else s) = t
  generalize (if c.mInsFlag then s.decodedPoc else s.iPrevPOC) = poc
  have hfound : ∀ p, getPicByPOC t poc = some p → (t.mPIC p).bufIndex ≠ none :=
    fun p hp => bufIndex_of_live (getPicByPOC_live hp).1
  dsimp only
  split
  · cases hp : getPicByPOC t poc with
    | none =>
      dsimp only
      split
      · exact Keeps.refl t
      · exact outputPicDisplay_keeps c t 0 false
    | some p =>
      have hskip := pbSkip_keeps c t p
      have hmark := hskip.trans (markPic_keeps (hskip.holds (hfound p hp)))
      dsimp only
      split
      · exact hmark
      · exact hmark.trans (outputPicDisplay_keeps c _ 0 false)
  · split
    · exact flushed_keeps c { t with firstPicFlag := 2 }
    · exact flushOutput_keeps c hfound

end Moves

/-! ## The pool -/

/-- The books stay sound, and a picture that is busy stays as it is. -/
structure Trims (s t : State) : Prop where
  sound : s.Sound → t.Sound
  busy : ∀ p, (s.mPIC p).busy = true → t.mPIC p = s.mPIC p
  created : ∀ p, (t.mPIC p).created = (s.mPIC p).created

/-- No picture has to be made for `pic_list_process`, or none can be made. -/
def NoNewPic (s : State) (workPicNum records : Nat) : Prop :=
  records = 0 ∨ ∀ p : Pic, p.val < workPicNum → (s.mPIC p).created = true

section Pool
variable {s t u : State} {p q : Pic} {workPicNum : Nat}

theorem Trims.refl (s : State) : Trims s s := ⟨id, fun _ _ => rfl, fun _ => rfl⟩

theorem Trims.trans (h1 : Trims s t) (h2 : Trims t u) : Trims s u := by
  refine ⟨fun hs => h2.sound (h1.sound hs), fun p hp => ?_,
    fun p => (h2.created p).trans (h1.created p)⟩
  have hsame := h1.busy p hp
  exact (h2.busy p (hsame ▸ hp)).trans hsame

theorem busy_of_idle {x : Picture} (h : x.idle = true) : x.busy = false := by
  simp only [Picture.idle, Bool.and_eq_true, Bool.not_eq_true'] at h
  simp [Picture.busy, h.1.1.2, h.1.2, h.2]

/-- A picture that is not busy is changed. -/
theorem trims_setPic (hidle : (s.mPIC p).busy = false)
    (hcreated : (t.mPIC p).created = (s.mPIC p).created)
    (hother : ∀ q, q ≠ p → t.mPIC q = s.mPIC q) (hsound : s.Sound → t.Sound) : Trims s t := by
  refine ⟨hsound, fun q hq => hother q fun hqp => ?_, fun q => ?_⟩
  · rw [hqp, hidle] at hq
    cases hq
  · by_cases hqp : q = p
    · rw [hqp, hcreated]
    · rw [hother q hqp]

/-- The frame buffer of a picture that is not busy goes back to the pool. -/
theorem sound_unuse {y : Picture} (h : s.Sound) (hidle : y.busy = false)
    (hbuf : y.bufIndex = none) (hmv : y.mvBufIndex = (s.mPIC p).mvBufIndex)
    (href : y.referenced = (s.mPIC p).referenced) :
    ((setBufUnused s (s.mPIC p).bufIndex).setPic p y).Sound := by
  cases hi : (s.mPIC p).bufIndex with
  | none =>
    exact sound_setPic h (hbuf.trans hi.symm) hmv href (fun hy => by rw [hidle] at hy; cases hy)
      fun _ => hi
  | some i =>
    apply (Booked.dropBuf h hi hbuf hmv hidle).congr
    intro q
    rw [← congrFun (field_same (f := Picture.referenced) href) q]
    rfl

theorem setBufUnused_pic (s : State) (o : Option BufIdx) : (setBufUnused s o).mPIC = s.mPIC := by
  cases o <;> rfl

theorem setPic_self (s : State) (p : Pic) (y : Picture) : (s.setPic p y).mPIC p = y := if_pos rfl

theorem setPic_other (s : State) (y : Picture) (h : q ≠ p) :
    (s.setPic p y).mPIC q = s.mPIC q := if_neg h

theorem releasePic_trims (workPicNum : Nat) (a : State × Nat) (p : Pic) :
    Trims a.1 (releasePic workPicNum a p).1 ∧
      (∀ q, q ≠ p → (releasePic workPicNum a p).1.mPIC q = a.1.mPIC q) ∧
      a.2 + (if ((releasePic workPicNum a p).1.mPIC p).created &&
        ((releasePic workPicNum a p).1.mPIC p).valid then 1 else 0) ≤
        (releasePic workPicNum a p).2 := by
  obtain ⟨s, count⟩ := a
  simp only [releasePic]
  split
  next hlive =>
    split
    next hidle =>
      simp only [Bool.and_eq_true] at hidle hlive
      have hbusy := busy_of_idle hidle.1
      have hone : ∀ b : Bool, count + (if b = true then 1 else 0) ≤ count + 1 := fun b => by
        split <;> omega
      have htrims : ∀ y : Picture, y.busy = false → y.bufIndex = none →
          y.mvBufIndex = (s.mPIC p).mvBufIndex → y.referenced = (s.mPIC p).referenced →
          y.created = (s.mPIC p).created →
          Trims s ((setBufUnused s (s.mPIC p).bufIndex).setPic p y) ∧
            ∀ q, q ≠ p → ((setBufUnused s (s.mPIC p).bufIndex).setPic p y).mPIC q = s.mPIC q := by
        intro y hy hbuf hmv href hcreated
        have hother : ∀ q, q ≠ p →
            ((setBufUnused s (s.mPIC p).bufIndex).setPic p y).mPIC q = s.mPIC q := fun q hq => by
          rw [setPic_other _ y hq, setBufUnused_pic]
        exact ⟨trims_setPic hbusy (by rw [setPic_self, hcreated]) hother fun h =>
          sound_unuse h hy hbuf hmv href, hother⟩
      split
      · obtain ⟨h1, h2⟩ := htrims { s.mPIC p with bufIndex := none, width := 0, height := 0
                                                  valid := false } hbusy rfl rfl rfl rfl
        exact ⟨h1, h2, hone _⟩
      · obtain ⟨h1, h2⟩ := htrims { s.mPIC p with
            bufIndex := none
            width := (setBufUnused s (s.mPIC p).bufIndex).picW
            height := (setBufUnused s (s.mPIC p).bufIndex).picH } hbusy rfl rfl rfl rfl
        exact ⟨h1, h2, hone _⟩
    next =>
      exact ⟨Trims.refl s, fun _ _ => rfl, Nat.le_refl _⟩
  next hlive =>
    exact ⟨Trims.refl s, fun _ _ => rfl, Nat.le_refl _⟩

/-- The number of usable pictures in a list of slots. -/
def usable (s : State) (l : List Pic) : Nat :=
  l.countP fun p => (s.mPIC p).created && (s.mPIC p).valid

/-- The first loop of `pic_list_process` counts at least the pictures it leaves. -/
theorem releasePics_trims (workPicNum : Nat) {l : List Pic} (hl : l.Nodup) (a : State × Nat) :
    Trims a.1 (l.foldl (releasePic workPicNum) a).1 ∧
      (∀ q, q ∉ l → (l.foldl (releasePic workPicNum) a).1.mPIC q = a.1.mPIC q) ∧
      a.2 + usable (l.foldl (releasePic workPicNum) a).1 l ≤
        (l.foldl (releasePic workPicNum) a).2 := by
  induction l generalizing a with
  | nil => exact ⟨Trims.refl _, fun _ _ => rfl, Nat.le_refl _⟩
  | cons p ps ih =>
    obtain ⟨hp, hps⟩ := List.nodup_cons.mp hl
    obtain ⟨h1, h2, h3⟩ := releasePic_trims workPicNum a p
    obtain ⟨h4, h5, h6⟩ := ih hps (releasePic workPicNum a p)
    refine ⟨h1.trans h4, fun q hq => ?_, ?_⟩
    · rw [List.mem_cons, not_or] at hq
      exact (h5 q hq.2).trans (h2 q hq.1)
    · rw [← h5 p hp] at h3
      rw [List.foldl_cons, usable, List.countP_cons]
      rw [usable] at h6
      omega

/-- A usable picture is made of one that is there. -/
theorem trims_use (hsound : s.Sound) (hvalid : (s.mPIC p).valid = false) : Trims s (s.setPic p
      { s.mPIC p with valid := true, bufIndex := none, width := s.picW, height := s.picH }) := by
  have hnone := hsound.spare p (by rw [hvalid, Bool.and_false])
  have hidle : (s.mPIC p).busy = false := by
    by_contra hb
    exact hsound.busy p (by simpa using hb) hnone
  apply trims_setPic hidle (by rw [setPic_self]) (fun q hq => setPic_other s _ hq)
  intro h
  have hnew := sound_unuse (y := { s.mPIC p with
    valid := true, bufIndex := none, width := s.picW, height := s.picH }) h hidle rfl rfl rfl
  rw [hnone] at hnew
  exact hnew

theorem usable_setPic {l : List Pic} (hp : p ∉ l) (y : Picture) :
    usable (s.setPic p y) l = usable s l := by
  apply List.countP_congr
  intro q hq
  have hqp : q ≠ p := fun hqp => by
    rw [hqp] at hq
    exact hp hq
  rw [setPic_other s y hqp]

theorem usePics_valid {ps : List Pic} {count records : Nat} (hcreated : (s.mPIC p).created = true)
    (hvalid : (s.mPIC p).valid = true) : usePics workPicNum (p :: ps) count records s =
      usePics workPicNum ps count records s := by
  rw [usePics, if_neg (by rw [hcreated]; simp)]
  have hnew : ¬ (decide (count < workPicNum) && !(s.mPIC p).created) = true := by
    rw [hcreated]
    simp
  simp only [if_neg hnew]
  rw [if_neg (by rw [hvalid]; simp)]

theorem usePics_spare {ps : List Pic} {count records : Nat} (hcreated : (s.mPIC p).created = true)
    (hvalid : (s.mPIC p).valid = false) : usePics workPicNum (p :: ps) count records s =
      let s := s.setPic p
        { s.mPIC p with valid := true, bufIndex := none, width := s.picW, height := s.picH }
      if workPicNum ≤ count + 1 then s else usePics workPicNum ps (count + 1) records s := by
  rw [usePics, if_neg (by rw [hcreated]; simp)]
  have hnew : ¬ (decide (count < workPicNum) && !(s.mPIC p).created) = true := by
    rw [hcreated]
    simp
  simp only [if_neg hnew]
  rw [if_pos (by rw [hcreated, hvalid]; rfl)]

theorem usePics_full {ps : List Pic} {count records : Nat} (hcreated : (s.mPIC p).created = false)
    (hfull : workPicNum ≤ count) : usePics workPicNum (p :: ps) count records s =
      usePics workPicNum ps count records s := by
  have hlt : decide (count < workPicNum) = false := decide_eq_false (by omega)
  rw [usePics, if_neg (by rw [hlt]; simp)]
  simp only [hlt, Bool.false_and, Bool.false_eq_true, if_false]
  rw [if_neg (by rw [hcreated]; simp)]

/-- The second loop makes no picture when the first slots have theirs. -/
theorem usePics_trims : ∀ (l : List Pic) (k count records : Nat) (s : State),
    l = (List.finRange _).drop k → s.Sound → NoNewPic s workPicNum records →
    (workPicNum ≤ count ∨ k + usable s l ≤ count) →
    Trims s (usePics workPicNum l count records s)
  | [], _, _, _, s, _, _, _, _ => Trims.refl s
  | p :: ps, k, count, records, s, hl, hsound, hnew, hcount => by
    have hlt : k < (List.finRange MAX_REF_PIC_NUM).length := by
      by_contra hge
      rw [List.drop_eq_nil_of_le (by omega)] at hl
      cases hl
    rw [List.drop_eq_getElem_cons hlt] at hl
    obtain ⟨hp, hps⟩ := List.cons.inj hl
    have hval : p.val = k := by
      rw [hp, List.getElem_finRange]
      rfl
    have hmem : p ∉ ps := by
      have hnodup : (p :: ps).Nodup := by
        rw [hl, ← List.drop_eq_getElem_cons hlt]
        exact (List.nodup_finRange _).sublist (List.drop_sublist _ _)
      exact (List.nodup_cons.mp hnodup).1
    have husable : usable s (p :: ps) = usable s ps +
        if (s.mPIC p).created && (s.mPIC p).valid then 1 else 0 := List.countP_cons
    cases hcreated : (s.mPIC p).created with
    | true =>
      cases hvalid : (s.mPIC p).valid with
      | true =>
        rw [usePics_valid hcreated hvalid]
        apply usePics_trims ps (k + 1) count records s hps hsound hnew
        rw [husable, hcreated, hvalid, Bool.and_self, if_pos rfl] at hcount
        omega
      | false =>
        have huse := trims_use hsound hvalid
        rw [usePics_spare hcreated hvalid]
        dsimp only
        split
        · exact huse
        · refine huse.trans (usePics_trims ps (k + 1) (count + 1) records _ hps (huse.sound hsound)
            (hnew.imp_right fun h q hq => (huse.created q).trans (h q hq)) ?_)
          rw [usable_setPic hmem]
          omega
    | false =>
      by_cases hfull : workPicNum ≤ count
      · rw [usePics_full hcreated hfull]
        exact usePics_trims ps (k + 1) count records s hps hsound hnew (Or.inl hfull)
      · have hzero : records = 0 := by
          by_contra hne
          have hslot : ¬ p.val < workPicNum := fun hlt => by
            rw [hnew.resolve_left hne p hlt] at hcreated
            cases hcreated
          omega
        rw [usePics, if_pos (by rw [hcreated, hzero]; simpa using hfull)]
        exact Trims.refl s

theorem deallocUnusedBuf_trims (s : State) : Trims s (deallocUnusedBuf s) := by
  refine ⟨fun h => ?_, fun _ _ => rfl, fun _ => rfl⟩
  refine Booked.setBufs h (fun i => ?_) fun i hused halloc => ?_
  · simp only [deallocUnusedBuf]
    split <;> rfl
  · simp only [deallocUnusedBuf]
    rw [if_neg (by rw [hused]; simp)]
    exact halloc

/-- `pic_list_process`, when it makes no new picture. -/
theorem picListProcess_trims (hsound : s.Sound) {records : Nat}
    (hnew : NoNewPic s workPicNum records) : Trims s (picListProcess s workPicNum records) := by
  obtain ⟨h1, -, h2⟩ := releasePics_trims workPicNum (List.nodup_finRange _) (s, 0)
  unfold picListProcess
  dsimp only
  split
  · have huse := usePics_trims (List.finRange _) 0 _ records _ rfl (h1.sound hsound)
      (hnew.imp_right fun h q hq => (h1.created q).trans (h q hq)) (Or.inr h2)
    exact (h1.trans huse).trans (deallocUnusedBuf_trims _)
  · exact h1.trans (deallocUnusedBuf_trims _)

end Pool

/-! ## A new picture -/

/-- Only the motion-vector buffer of a picture may differ. -/
def SameButMv (s t : State) : Prop := ∀ q, ∃ j, t.mPIC q = { s.mPIC q with mvBufIndex := j }

section NewPic
variable {s t u : State} {p q : Pic} {a : Allocs} {hold : Pic → Prop}

theorem SameButMv.trans (h1 : SameButMv s t) (h2 : SameButMv t u) : SameButMv s u := fun q => by
  obtain ⟨i, hi⟩ := h1 q
  obtain ⟨j, hj⟩ := h2 q
  exact ⟨j, by rw [hj, hi]⟩

/-- What does not concern the motion-vector buffer is the same. -/
theorem SameButMv.field {α : Type} (h : SameButMv s t) (f : Picture → α)
    (hf : ∀ x j, f { x with mvBufIndex := j } = f x) (q : Pic) : f (t.mPIC q) = f (s.mPIC q) := by
  obtain ⟨j, hj⟩ := h q
  rw [hj, hf]

theorem putMvBuf_same (s : State) (p : Pic) : SameButMv s (putMvBuf s p) := fun q => by
  rw [putMvBuf_pic]
  by_cases hqp : q = p
  · exact ⟨none, by rw [if_pos hqp, hqp]⟩
  · exact ⟨_, by rw [if_neg hqp]⟩

theorem takeMvBuf_same (s : State) (p : Pic) (j : MvIdx) : SameButMv s (takeMvBuf s p j) := fun q => by
  by_cases hqp : q = p
  · exact ⟨some j, by rw [hqp]; exact if_pos rfl⟩
  · exact ⟨_, if_neg hqp⟩

theorem freePic_free (h : freePic s = some p) : s.free p = true := by
  rcases mem_of_foldl_pick h with hnone | ⟨-, hok⟩
  · cases hnone
  · exact hok

/-- The sizes the state is for. -/
def State.sizes (s : State) : Nat × Nat × Nat := (s.picW, s.picH, s.mvBufSize)

theorem allocBuf_frame (hold : Pic → Prop) (s : State) (bufSize : Int) (alloc : Bool) :
    (allocBuf s bufSize alloc).2.mPIC = s.mPIC ∧ (allocBuf s bufSize alloc).2.sizes = s.sizes ∧
      (s.Books hold → (allocBuf s bufSize alloc).2.Books hold) := by
  unfold allocBuf
  split
  · exact ⟨rfl, rfl, id⟩
  · cases hi : (List.finRange _).find? fun i => !(s.mBUF i).allocated with
    | none => exact ⟨rfl, rfl, id⟩
    | some i =>
      have hfree : (s.mBUF i).allocated = false := by simpa using List.find?_some hi
      dsimp only
      split
      · split
        · refine ⟨rfl, rfl, fun h => ?_⟩
          have hunused : (s.mBUF i).used = false := by
            by_contra hused
            rw [h.bufAllocated i (by simpa using hused)] at hfree
            cases hfree
          refine Booked.setBufs h (fun k => ?_) fun k hk halloc => ?_
          · by_cases hki : k = i
            · simp [State.setBuf, hki, hunused]
            · simp [State.setBuf, hki]
          · by_cases hki : k = i
            · simp [State.setBuf, hki]
            · simpa [State.setBuf, hki] using halloc
        · exact ⟨rfl, rfl, id⟩
      · exact ⟨rfl, rfl, id⟩

/-- `config_pic` either fails and changes nothing, or gives the picture a frame buffer. -/
theorem configPic_spec (s : State) (p : Pic) (bufSize : Int) :
    configPic s p bufSize = (false, s) ∨ ∃ t, configPic s p bufSize = (true, t) ∧
      t.sizes = s.sizes ∧ (∀ q, q ≠ p → t.mPIC q = s.mPIC q) ∧
      (∃ i, t.mPIC p = { s.mPIC p with poc := INVALID_POC, bufIndex := some i }) ∧
      (s.Sound → (s.mPIC p).bufIndex = none → ((s.mPIC p).created && (s.mPIC p).valid) = true →
        t.Sound) := by
  unfold configPic
  cases hi : (List.finRange _).find? fun i =>
      (s.mBUF i).allocated && !(s.mBUF i).used && decide (bufSize ≤ (s.mBUF i).size) with
  | none => exact Or.inl rfl
  | some i =>
    have hbuf : ((s.mBUF i).allocated = true ∧ (s.mBUF i).used = false) ∧
        bufSize ≤ (s.mBUF i).size := by simpa using List.find?_some hi
    have hself : ((s.setBuf i { s.mBUF i with used := true }).setPic p
        { s.mPIC p with poc := INVALID_POC, bufIndex := some i }).mPIC p =
        { s.mPIC p with poc := INVALID_POC, bufIndex := some i } := setPic_self _ p _
    refine Or.inr ⟨_, rfl, rfl, fun q hq => setPic_other _ _ hq, ⟨i, hself⟩,
      fun h hnone hvalid => ?_⟩
    have hnew := Booked.takeBuf (y := { s.mPIC p with poc := INVALID_POC, bufIndex := some i })
      h hnone hbuf.1.2 hbuf.1.1 rfl rfl hvalid
    apply hnew.congr
    intro q
    rw [← congrFun (field_same (f := Picture.referenced) (y := { s.mPIC p with
      poc := INVALID_POC, bufIndex := some i }) (x := s.mPIC) (p := p) rfl) q]
    rfl

/-- What `get_new_pic` has when it looks for a motion-vector buffer: the other pictures are as they
were, and the picture is as free as before. -/
structure Chosen (s t : State) (p : Pic) : Prop where
  sound : t.Sound
  sizes : t.sizes = s.sizes
  other : ∀ q, q ≠ p → t.mPIC q = s.mPIC q
  idle : (t.mPIC p).busy = false

theorem idle_of_free (h : s.free p = true) : (s.mPIC p).idle = true := by
  simp only [State.free, Bool.and_eq_true] at h
  exact h.1.1.1

theorem Chosen.refl (h : s.Sound) (hfree : s.free p = true) : Chosen s s p :=
  ⟨h, rfl, fun _ _ => rfl, busy_of_idle (idle_of_free hfree)⟩

theorem deallocPicBuf_none (h : (s.mPIC p).bufIndex = none) :
    deallocPicBuf s p = s.setPic p { s.mPIC p with bufIndex := none } := by
  rw [deallocPicBuf, h]

/-- `get_new_pic` gets a frame buffer, or leaves the picture without one. -/
theorem getBuf_spec (h : s.Sound) (hfree : s.free p = true) (a : Allocs) :
    Chosen s (getBuf s p a).2 p ∧ ((getBuf s p a).1 = true →
      ((getBuf s p a).2.mPIC p).bufIndex ≠ none ∧ ((getBuf s p a).2.mPIC p).width = s.picW ∧
        ((getBuf s p a).2.mPIC p).height = s.picH) := by
  have hidle := idle_of_free hfree
  have hvalid : ((s.mPIC p).created && (s.mPIC p).valid) = true := by
    simp only [Picture.idle, Bool.and_eq_true] at hidle
    simp [hidle.1.1.1.1, hidle.1.1.1.2]
  have hbusy := busy_of_idle hidle
  have hsize : (s.mPIC p).width = s.picW ∧ (s.mPIC p).height = s.picH := by
    simp only [State.free, Bool.and_eq_true, decide_eq_true_eq] at hfree
    exact ⟨hfree.1.1.2, hfree.1.2⟩
  unfold getBuf
  split
  next hbuf => exact ⟨Chosen.refl h hfree, fun _ => ⟨hbuf, hsize⟩⟩
  next hbuf =>
    have hnone : (s.mPIC p).bufIndex = none := not_not.mp hbuf
    obtain ⟨hpics, hsizes, hbooks⟩ := allocBuf_frame (fun p => (s.mPIC p).referenced = true)
      s a.bufSize a.buf
    obtain ⟨⟨ok, t⟩, hr⟩ : ∃ r, allocBuf s a.bufSize a.buf = r := ⟨_, rfl⟩
    rw [hr] at hpics hsizes hbooks ⊢
    dsimp only at hpics hsizes hbooks ⊢
    have ht : t.Sound := (hbooks h).congr fun q => by rw [hpics]
    have hchosen : Chosen s t p :=
      ⟨ht, hsizes, fun q _ => congrFun hpics q, by rw [hpics]; exact hbusy⟩
    cases ok with
    | false => exact ⟨hchosen, fun hok => by cases hok⟩
    | true =>
      rw [if_pos rfl]
      rcases configPic_spec t p a.bufSize with hfail | ⟨u, hok, hsame, hother, ⟨i, hi⟩, hsound⟩
      · rw [hfail]
        dsimp only
        rw [if_neg Bool.false_ne_true, deallocPicBuf_none (by rw [hpics]; exact hnone)]
        refine ⟨⟨?_, hsizes, fun q hq => ?_, ?_⟩, fun hok => by cases hok⟩
        · exact (keeps_setPic (y := { t.mPIC p with bufIndex := none }) (by rw [hpics, hnone]) rfl
            rfl Or.inl rfl rfl).1 ht
        · rw [setPic_other _ _ hq, hpics]
        · rw [setPic_self, hpics]
          exact hbusy
      · rw [hok]
        dsimp only
        rw [if_pos rfl]
        have hu : u.Sound := hsound ht (by rw [hpics]; exact hnone) (by rw [hpics]; exact hvalid)
        have hsizes' : u.sizes = s.sizes := hsame.trans hsizes
        simp only [State.sizes, Prod.mk.injEq] at hsizes'
        refine ⟨⟨?_, hsame.trans hsizes, fun q hq => ?_, ?_⟩, fun _ => ?_⟩
        · exact (keeps_setPic (y := { u.mPIC p with width := u.picW, height := u.picH }) rfl rfl
            rfl Or.inl rfl rfl).1 hu
        · rw [setPic_other _ _ hq, hother q hq, hpics]
        · rw [setPic_self, hi, hpics]
          exact hbusy
        · rw [setPic_self, hi]
          exact ⟨Option.some_ne_none i, hsizes'.1, hsizes'.2.1⟩

/-- Without references no picture has a motion-vector buffer, and all of them can go. -/
theorem deallocMvBufs_books (h : s.Books hold) (hnone : ∀ q, ¬ hold q) :
    (deallocMvBufs s).Books hold := by
  have hmv : ∀ q, (s.mPIC q).mvBufIndex = none := fun q => by
    by_contra hne
    exact hnone q ((h.mvHeld q).mp hne)
  have hpics : (deallocMvBufs s).mPIC = s.mPIC := by
    funext q
    show (if (s.mPIC q).created then { s.mPIC q with mvBufIndex := none } else s.mPIC q) = _
    rw [Picture.setMv_self (hmv q), ite_self]
  have hused : ∀ j, ((deallocMvBufs s).mMvBUF j).used = false := by
    intro j
    show (if (s.mMvBUF j).allocated then {} else s.mMvBUF j : MvBuf).used = false
    split
    next => rfl
    next halloc =>
      by_contra hne
      exact halloc (h.mvAllocated j (by simpa using hne))
  have hempty : (Finset.univ.filter fun j => ((deallocMvBufs s).mMvBUF j).used = true) = ∅ := by
    simp [hused]
  refine ⟨?_, ?_, h.bufAllocated, fun j hj => ?_, ?_, ?_, ?_⟩
  · rw [hpics]
    exact h.bufs
  · rw [hpics, hempty, funext hmv]
    exact owns_none
  · rw [hused j] at hj
    cases hj
  · rw [hpics]
    exact h.mvHeld
  · rw [hpics]
    exact h.busy
  · rw [hpics]
    exact h.spare

theorem resizeMvBufs_same (s : State) (p : Pic) : SameButMv s (resizeMvBufs s p) := fun q => by
  unfold resizeMvBufs
  dsimp only
  split
  · show ∃ j, (if (s.mPIC q).created then { s.mPIC q with mvBufIndex := none } else s.mPIC q) = _
    split
    · exact ⟨none, rfl⟩
    · exact ⟨_, rfl⟩
  · exact ⟨_, rfl⟩

/-- The size of the motion-vector buffers stays, or there are no references. -/
theorem resizeMvBufs_sound (h : s.Sound)
    (hsize : newMvSize (s.mPIC p).width (s.mPIC p).height = s.mvBufSize ∨
      ∀ q, (s.mPIC q).referenced = false) : (resizeMvBufs s p).Sound := by
  have hsame := resizeMvBufs_same s p
  unfold resizeMvBufs at hsame ⊢
  dsimp only at hsame ⊢
  split
  next hne =>
    have hnone := hsize.resolve_left hne
    rw [if_pos hne] at hsame
    refine (deallocMvBufs_books h fun q hq => ?_).congr fun q => ?_
    · rw [hnone q] at hq
      cases hq
    · exact Bool.eq_iff_iff.mp (hsame.field Picture.referenced (fun _ _ => rfl) q).symm
  next => exact h

/-- `get_mv_buf` leaves everything else of the pictures alone. -/
theorem getMvBuf_same (s : State) (p : Pic) (alloc : Bool) :
    SameButMv s (getMvBuf s p alloc).2 := by
  have hput := (resizeMvBufs_same s p).trans (putMvBuf_same _ p)
  unfold getMvBuf
  generalize putMvBuf (resizeMvBufs s p) p = t at hput
  dsimp only
  split
  · exact hput.trans (takeMvBuf_same t p _)
  · split
    · split
      · exact hput.trans (takeMvBuf_same t p _)
      · exact hput
    · exact hput

/-- `get_mv_buf` for a picture that is not referenced. -/
theorem getMvBuf_spec (h : s.Sound) (hunref : (s.mPIC p).referenced = false)
    (hsize : newMvSize (s.mPIC p).width (s.mPIC p).height = s.mvBufSize ∨
      ∀ q, (s.mPIC q).referenced = false) (alloc : Bool) :
    ((getMvBuf s p alloc).1 = true →
      (getMvBuf s p alloc).2.Books fun q => q = p ∨ (s.mPIC q).referenced = true) ∧
    ((getMvBuf s p alloc).1 = false → (getMvBuf s p alloc).2.Sound) := by
  have hsound := resizeMvBufs_sound h hsize
  have hrefs := (resizeMvBufs_same s p).field Picture.referenced fun _ _ => rfl
  have hnone : ((resizeMvBufs s p).mPIC p).mvBufIndex = none := by
    by_contra hne
    have href := (hsound.mvHeld p).mp hne
    rw [hrefs, hunref] at href
    cases href
  unfold getMvBuf
  rw [putMvBuf_none hnone]
  generalize resizeMvBufs s p = t at hsound hrefs hnone
  have htake : ∀ j, (t.mMvBUF j).used = false →
      (takeMvBuf t p j).Books fun q => q = p ∨ (s.mPIC q).referenced = true := fun j hj =>
    (Booked.takeMv hsound hnone hj).congr fun q => by rw [hrefs]
  dsimp only
  cases hj : (List.finRange _).find? fun j => (t.mMvBUF j).allocated && !(t.mMvBUF j).used with
  | some j =>
    have hfree : (t.mMvBUF j).allocated = true ∧ (t.mMvBUF j).used = false := by
      simpa using List.find?_some hj
    exact ⟨fun _ => htake j hfree.2, fun hf => by cases hf⟩
  | none =>
    dsimp only
    cases hj : (List.finRange _).find? fun j => !(t.mMvBUF j).allocated with
    | some j =>
      have hfree : (t.mMvBUF j).used = false := by
        have halloc : (t.mMvBUF j).allocated = false := by simpa using List.find?_some hj
        by_contra hused
        rw [hsound.mvAllocated j (by simpa using hused)] at halloc
        cases halloc
      cases alloc with
      | true => exact ⟨fun _ => htake j hfree, fun hf => by cases hf⟩
      | false => exact ⟨fun hf => absurd hf Bool.false_ne_true, fun _ => hsound⟩
    | none => exact ⟨fun hf => absurd hf Bool.false_ne_true, fun _ => hsound⟩

/-- The size of the motion-vector buffers stays as it is for the new picture, or there are no
references, or `get_new_pic` does not get so far. -/
def MvSizeKept (s : State) (a : Allocs) : Prop :=
  ∀ p, freePic s = some p → (getBuf s p a).1 = true →
    newMvSize s.picW s.picH = s.mvBufSize ∨ ∀ q, (s.mPIC q).referenced = false

/-- The pictures that are busy keep their frame buffers. -/
def KeepsBusy (s t : State) : Prop :=
  ∀ p, (s.mPIC p).busy = true → (t.mPIC p).bufIndex = (s.mPIC p).bufIndex

theorem startPic_pic (c : Config) (s : State) (p q : Pic) : (startPic c s p).mPIC q =
    if q = p then startedPic c s p else s.mPIC q := by
  unfold startPic
  dsimp only
  split <;> rfl

theorem startPic_sound (c : Config) (h : s.Books fun q => q = p ∨ (s.mPIC q).referenced = true)
    (hbuf : (s.mPIC p).bufIndex ≠ none) : (startPic c s p).Sound := by
  have hnew := Booked.setPic (p := p) (y := startedPic c s p) h rfl rfl (fun _ => hbuf) (h.spare p)
  have hsound : (s.setPic p (startedPic c s p)).Sound := by
    apply hnew.congr
    intro q
    show _ ↔ (if q = p then startedPic c s p else s.mPIC q).referenced = true
    by_cases hqp : q = p
    · rw [if_pos hqp]
      exact iff_of_true (Or.inl hqp) rfl
    · rw [if_neg hqp]
      exact ⟨fun hq => hq.resolve_left hqp, Or.inr⟩
  unfold startPic
  dsimp only
  split
  · exact hsound
  · exact hsound

theorem startPic_bufIndex (c : Config) (s : State) (p q : Pic) :
    ((startPic c s p).mPIC q).bufIndex = (s.mPIC q).bufIndex := by
  rw [startPic_pic]
  by_cases hqp : q = p
  · rw [if_pos hqp, hqp]
    rfl
  · rw [if_neg hqp]

theorem getNewPic_spec (c : Config) (h : s.Sound) (hsize : MvSizeKept s a) :
    (getNewPic c s a).2.Sound ∧ KeepsBusy s (getNewPic c s a).2 := by
  unfold getNewPic
  cases hp : freePic s with
  | none => exact ⟨h, fun _ _ => rfl⟩
  | some p =>
    have hfree := freePic_free hp
    obtain ⟨hchosen, hbuf⟩ := getBuf_spec h hfree a
    have hkept := hsize p hp
    obtain ⟨⟨ok, t⟩, hr⟩ : ∃ r, getBuf s p a = r := ⟨_, rfl⟩
    dsimp only
    rw [hr] at hchosen hbuf hkept ⊢
    dsimp only at hchosen hbuf hkept ⊢
    -- a picture that is busy is another one
    have hbusy : ∀ u : State, (∀ q, (u.mPIC q).bufIndex = (t.mPIC q).bufIndex) → KeepsBusy s u := by
      intro u hu q hq
      have hqp : q ≠ p := fun hqp => by
        rw [hqp, busy_of_idle (idle_of_free hfree)] at hq
        cases hq
      rw [hu q, hchosen.other q hqp]
    cases ok with
    | false => exact ⟨hchosen.sound, hbusy t fun _ => rfl⟩
    | true =>
      rw [if_pos rfl]
      obtain ⟨hsome, hwidth, hheight⟩ := hbuf rfl
      have hidle : (t.mPIC p).referenced = false := by
        have hidle := hchosen.idle
        simp only [Picture.busy, Bool.or_eq_false_iff] at hidle
        exact hidle.1.1
      have hsizes := hchosen.sizes
      simp only [State.sizes, Prod.mk.injEq] at hsizes
      have hmv : newMvSize (t.mPIC p).width (t.mPIC p).height = t.mvBufSize ∨
          ∀ q, (t.mPIC q).referenced = false := by
        rw [hwidth, hheight, hsizes.2.2]
        apply (hkept rfl).imp_right
        intro hnone q
        by_cases hqp : q = p
        · rw [hqp]
          exact hidle
        · rw [hchosen.other q hqp]
          exact hnone q
      obtain ⟨hgot, hfailed⟩ := getMvBuf_spec hchosen.sound hidle hmv a.mv
      have hsame := getMvBuf_same t p a.mv
      obtain ⟨⟨ok, u⟩, hr⟩ : ∃ r, getMvBuf t p a.mv = r := ⟨_, rfl⟩
      rw [hr] at hsame hgot hfailed ⊢
      dsimp only at hsame hgot hfailed ⊢
      have hbufs := hsame.field Picture.bufIndex fun _ _ => rfl
      have hrefs := hsame.field Picture.referenced fun _ _ => rfl
      cases ok with
      | false => exact ⟨hfailed rfl, hbusy u hbufs⟩
      | true =>
        have hbooks := hgot rfl
        rw [if_pos rfl]
        split
        · refine ⟨startPic_sound c (hbooks.congr fun q => by rw [hrefs]) ?_, hbusy _ fun q => ?_⟩
          · rw [hbufs]
            exact hsome
          · exact (startPic_bufIndex c u p q).trans (hbufs q)
        · have hput := putMvBuf_same u p
          refine ⟨(putMvBuf_books hbooks p).congr fun q => ?_, hbusy _ fun q => ?_⟩
          · rw [hput.field Picture.referenced (fun _ _ => rfl) q, hrefs q]
            constructor
            · rintro ⟨hqp, hq⟩
              exact hq.resolve_left hqp
            · intro hq
              refine ⟨fun hqp => ?_, Or.inr hq⟩
              rw [hqp, hidle] at hq
              cases hq
          · exact (hput.field Picture.bufIndex (fun _ _ => rfl) q).trans (hbufs q)

end NewPic

/-! ## The start -/

section Start
variable {s : State} {p : Pic}

theorem sound_empty (width height : Nat) : ({ picW := width, picH := height } : State).Sound := by
  refine ⟨?_, ?_, fun i hi => absurd hi Bool.false_ne_true,
    fun j hj => absurd hj Bool.false_ne_true, fun p => ?_, fun p hp => ?_, fun _ _ => rfl⟩
  · simpa using owns_none
  · simpa using owns_none
  · exact iff_of_false (fun h => h rfl) Bool.false_ne_true
  · exact absurd hp Bool.false_ne_true

theorem allocBufs_frame (bufSize : Int) (allocs : List Bool) (s : State) :
    (allocBufs bufSize allocs s).mPIC = s.mPIC ∧
      (s.Sound → (allocBufs bufSize allocs s).Sound) := by
  induction allocs generalizing s with
  | nil => exact ⟨rfl, id⟩
  | cons alloc allocs ih =>
    obtain ⟨hpics, -, hbooks⟩ := allocBuf_frame (fun p => (s.mPIC p).referenced = true)
      s bufSize alloc
    have hsound : s.Sound → (allocBuf s bufSize alloc).2.Sound := fun h =>
      (hbooks h).congr fun q => by rw [hpics]
    simp only [allocBufs]
    split
    · obtain ⟨h1, h2⟩ := ih (allocBuf s bufSize alloc).2
      exact ⟨h1.trans hpics, fun h => h2 (hsound h)⟩
    · exact ⟨hpics, hsound⟩

theorem initPics_sound (bufSize : Int) {l : List Pic} (hl : l.Nodup) (records : Nat) (s : State)
    (h : s.Sound) (hnew : ∀ p ∈ l, s.mPIC p = {}) : (initPics bufSize l records s).Sound := by
  induction l generalizing records s with
  | nil => exact h
  | cons p ps ih =>
    obtain ⟨hp, hps⟩ := List.nodup_cons.mp hl
    cases records with
    | zero => exact h
    | succ records =>
      have hself := hnew p List.mem_cons_self
      rw [initPics]
      dsimp only
      generalize hx : ({ picInit with
        valid := true, bufIndex := none, mvBufIndex := none, width := s.picW, height := s.picH
        poc := INVALID_POC } : Picture) = x
      have hcreated : (x.created && x.valid) = true := by rw [← hx]; rfl
      have hnone : x.bufIndex = none := by rw [← hx]
      have hidle : x.busy = false := by rw [← hx]; rfl
      have hmv : x.mvBufIndex = none := by rw [← hx]
      have href : x.referenced = false := by rw [← hx]; rfl
      have hadd : (s.setPic p x).Sound :=
        sound_setPic h (by rw [hself, hnone]) (by rw [hself, hmv]) (by rw [hself, href])
          (fun hy => by rw [hidle] at hy; cases hy) fun hy => by rw [hcreated] at hy; cases hy
      have hat : (s.setPic p x).mPIC p = x := setPic_self s p x
      rcases configPic_spec (s.setPic p x) p bufSize with hfail | ⟨t, hok, -, hother, -, hsound⟩
      · rw [hfail]
        dsimp only
        rw [if_neg Bool.false_ne_true, hat]
        exact sound_setPic (p := p) (y := { x with valid := false }) hadd (by rw [hat])
          (by rw [hat]) (by rw [hat]) (fun hy => absurd (hidle.symm.trans hy) Bool.false_ne_true)
          fun _ => by rw [hat, hnone]
      · rw [hok]
        dsimp only
        rw [if_pos rfl]
        apply ih hps records t (hsound hadd (by rw [hat, hnone]) (by rw [hat, hcreated]))
        intro q hq
        have hqp : q ≠ p := fun hqp => hp (hqp ▸ hq)
        rw [hother q hqp, setPic_other s x hqp]
        exact hnew q (List.mem_cons_of_mem p hq)

theorem initPicList_sound (width height initBufNum records : Nat) (bufSize : Int)
    (allocs : List Bool) : (initPicList width height initBufNum records bufSize allocs).Sound := by
  obtain ⟨hpics, hsound⟩ := allocBufs_frame bufSize (allocs.take initBufNum)
    { picW := width, picH := height }
  refine initPics_sound bufSize ((List.nodup_finRange _).sublist (List.take_sublist _ _)) records _
    (hsound (sound_empty width height)) fun p _ => ?_
  rw [hpics]

end Start

/-! ## Runs -/

/-- A call that works on the pictures of the instance. -/
inductive Call
  | header (h : Header)
  | picListProcess (workPicNum records : Nat)
  | prePic
  | applyRefPicSet (curRps : Fin 16 → UInt16)
  | newPic (a : Allocs)
  | marks (p : Pic) (m : Marks)
  | decoded
  | flush (poc : Int)
  | output (flush : Nat) (ones : Bool)
  | putBack (p : Pic) (vfRef : Nat) (ready : Bool)

def call (c : Config) (s : State) : Call → State
  | .header h => readHeader s h
  | .picListProcess workPicNum records => picListProcess s workPicNum records
  | .prePic => hevcPrePic c s
  | .applyRefPicSet curRps => applyRefPicSet s s.currPOC curRps
  | .newPic a => nextPic c s a
  | .marks p m => setMarks s p m
  | .decoded => { s with decodedPoc := s.currPOC }
  | .flush poc => flushOutput c s (getPicByPOC s poc)
  | .output flush ones => outputPicDisplay c s flush ones
  | .putBack p vfRef ready => returnPic s p vfRef ready

def step (c : Config) (s : State) (k : Call) : Option State := some (call c s k)

def State.HasBuf (s : State) (p : Pic) (i : BufIdx) : Prop :=
  (s.mPIC p).created = true ∧ (s.mPIC p).bufIndex = some i

def State.HasMvBuf (s : State) (p : Pic) (j : MvIdx) : Prop :=
  (s.mPIC p).created = true ∧ (s.mPIC p).mvBufIndex = some j

/-- A buffer is used exactly if one picture has it, and the pictures that are needed have theirs. -/
structure Balanced (s : State) : Prop where
  buf : ∀ i, (s.mBUF i).used = true ↔ ∃! p, s.HasBuf p i
  bufAllocated : ∀ i, (s.mBUF i).used = true → (s.mBUF i).allocated = true
  mvBuf : ∀ j, (s.mMvBUF j).used = true ↔ ∃! p, s.HasMvBuf p j
  referenced : ∀ p, (s.mPIC p).referenced = true →
    ∃ j, s.HasMvBuf p j ∧ (s.mMvBUF j).allocated = true
  busy : ∀ p, (s.mPIC p).busy = true → ∃ i, s.HasBuf p i ∧ (s.mBUF i).allocated = true

/-- No picture that is referenced, marked for output or on its way out loses its frame buffer. -/
def NoneLost (s t : State) : Prop :=
  ∀ p i, (s.mPIC p).busy = true → s.HasBuf p i → t.HasBuf p i ∧ (t.mBUF i).allocated = true

/-- The calls that take the two wrong branches are left out. -/
def CallOk (s : State) : Call → Prop
  | .picListProcess workPicNum records => NoNewPic s workPicNum records
  | .newPic a => MvSizeKept s a
  | _ => True

section Runs
variable {c : Config} {s t : State} {k : Call}

theorem used_iff_once {n m : Nat} {held : Fin n → Option (Fin m)} {u : Fin m → Bool}
    {has : Fin n → Fin m → Prop} (h : Owns held (Finset.univ.filter fun i => u i = true))
    (hiff : ∀ p i, has p i ↔ held p = some i) (i : Fin m) : u i = true ↔ ∃! p, has p i := by
  simp only [hiff]
  constructor
  · exact fun hu => h.once i (by simp [hu])
  · rintro ⟨p, hp, -⟩
    simpa using h.live_of_held p i hp

/-- A picture that has a buffer is there. -/
theorem created_of_bufIndex (h : s.Sound) {p : Pic} (hp : (s.mPIC p).bufIndex ≠ none) :
    (s.mPIC p).created = true := by
  cases hc : (s.mPIC p).created with
  | true => rfl
  | false => exact absurd (h.spare p (by rw [hc]; rfl)) hp

theorem hasBuf_iff (h : s.Sound) (p : Pic) (i : BufIdx) :
    s.HasBuf p i ↔ (s.mPIC p).bufIndex = some i :=
  ⟨And.right, fun hi => ⟨created_of_bufIndex h (by rw [hi]; exact Option.some_ne_none i), hi⟩⟩

theorem bufIndex_of_mvBufIndex (h : s.Sound) {p : Pic} (hp : (s.mPIC p).mvBufIndex ≠ none) :
    (s.mPIC p).bufIndex ≠ none := by
  apply h.busy p
  have href := (h.mvHeld p).mp hp
  simp [Picture.busy, href]

theorem hasMvBuf_iff (h : s.Sound) (p : Pic) (j : MvIdx) :
    s.HasMvBuf p j ↔ (s.mPIC p).mvBufIndex = some j :=
  ⟨And.right, fun hj => ⟨created_of_bufIndex h
    (bufIndex_of_mvBufIndex h (by rw [hj]; exact Option.some_ne_none j)), hj⟩⟩

theorem allocated_of_bufIndex (h : s.Sound) {p : Pic} {i : BufIdx}
    (hi : (s.mPIC p).bufIndex = some i) : (s.mBUF i).allocated = true :=
  h.bufAllocated i (by simpa using h.bufs.live_of_held p i hi)

theorem State.Sound.balanced (h : s.Sound) : Balanced s := by
  refine ⟨used_iff_once h.bufs (hasBuf_iff h), h.bufAllocated,
    used_iff_once h.mvs (hasMvBuf_iff h), fun p hp => ?_, fun p hp => ?_⟩
  · obtain ⟨j, hj⟩ := Option.ne_none_iff_exists'.mp ((h.mvHeld p).mpr hp)
    exact ⟨j, (hasMvBuf_iff h p j).mpr hj,
      h.mvAllocated j (by simpa using h.mvs.live_of_held p j hj)⟩
  · obtain ⟨i, hi⟩ := Option.ne_none_iff_exists'.mp (h.busy p hp)
    exact ⟨i, (hasBuf_iff h p i).mpr hi, allocated_of_bufIndex h hi⟩

theorem noneLost (hs : s.Sound) (ht : t.Sound) (h : KeepsBusy s t) : NoneLost s t := by
  intro p i hp hi
  have hkept := (h p hp).trans ((hasBuf_iff hs p i).mp hi)
  exact ⟨(hasBuf_iff ht p i).mpr hkept, allocated_of_bufIndex ht hkept⟩

theorem Keeps.call (h : Keeps s t) (hs : s.Sound) : t.Sound ∧ KeepsBusy s t :=
  ⟨h.1 hs, fun p _ => h.2 p⟩

theorem call_sound (c : Config) (hs : s.Sound) (hok : CallOk s k) :
    (call c s k).Sound ∧ KeepsBusy s (call c s k) := by
  cases k with
  | header h => exact ⟨hs, fun _ _ => rfl⟩
  | picListProcess workPicNum records =>
    have htrims := picListProcess_trims hs hok
    exact ⟨htrims.sound hs, fun p hp => by rw [call, htrims.busy p hp]⟩
  | prePic => exact (hevcPrePic_keeps c s).call hs
  | applyRefPicSet curRps => exact (applyRefPicSet_keeps s s.currPOC curRps).call hs
  | newPic a =>
    obtain ⟨hsound, hkept⟩ := getNewPic_spec c hs hok
    exact ⟨hsound, hkept⟩
  | marks p m => exact (setMarks_keeps s p m).call hs
  | decoded => exact ⟨hs, fun _ _ => rfl⟩
  | flush poc =>
    exact (flushOutput_keeps c fun p hp => bufIndex_of_live (getPicByPOC_live hp).1).call hs
  | output flush ones => exact (outputPicDisplay_keeps c s flush ones).call hs
  | putBack p vfRef ready => exact (returnPic_keeps s p vfRef ready).call hs

/-- As long as `pic_list_process` makes no picture and no size of the motion-vector buffers changes
under a reference, a buffer is used exactly if one picture has it, every reference has its
motion-vector buffer, and no picture loses a frame buffer it needs. -/
theorem buffers_balanced (c : Config) (width height initBufNum records : Nat) (bufSize : Int)
    (allocs : List Bool) (calls : List Call)
    (h : Guarded (step c) CallOk (initPicList width height initBufNum records bufSize allocs)
      calls) :
    Always (step c) Balanced (initPicList width height initBufNum records bufSize allocs) calls ∧
      Guarded (step c) (fun s k => NoneLost s (call c s k))
        (initPicList width height initBufNum records bufSize allocs) calls := by
  have hstart := initPicList_sound width height initBufNum records bufSize allocs
  have hkeep : ∀ s k s', s.Sound → CallOk s k → step c s k = some s' → s'.Sound := by
    intro s k s' hs hok hstep
    cases hstep
    exact (call_sound c hs hok).1
  refine ⟨(always_of_guarded hkeep hstart h).imp fun s hs => hs.balanced,
    guarded_imp hkeep (fun s k hs hok => ?_) hstart h⟩
  obtain ⟨hsound, hkept⟩ := call_sound c hs hok
  exact noneLost hs hsound hkept

end Runs

instance (s : State) (k : Call) : Decidable (CallOk s k) :=
  match k with
  | .picListProcess workPicNum records => inferInstanceAs (Decidable (records = 0 ∨
      ∀ p : Pic, p.val < workPicNum → (s.mPIC p).created = true))
  | .newPic a => inferInstanceAs (Decidable (∀ p, freePic s = some p → (getBuf s p a).1 = true →
      newMvSize s.picW s.picH = s.mvBufSize ∨ ∀ q, (s.mPIC q).referenced = false))
  | .header _ | .prePic | .applyRefPicSet _ | .marks _ _ | .decoded | .flush _ | .output _ _
  | .putBack _ _ _ => inferInstanceAs (Decidable True)

def noRefs : Fin 16 → UInt16 := fun _ => RPS_END

theorem refPicNum_pos : 0 < MAX_REF_PIC_NUM := by decide

def firstSlot : Fin MAX_REF_PIC_NUM := ⟨0, refPicNum_pos⟩

def thirdSlot : Fin MAX_REF_PIC_NUM := ⟨2, by decide⟩

/-- Two small pictures, the first after a failed allocation, and a large one of a new sequence. -/
def twoSequences : List Call :=
  [.header { idr := true }, .picListProcess 3 0, .prePic, .newPic { mv := false },
    .picListProcess 3 0, .newPic {}, .marks firstSlot { sliceType := 2 }, .decoded,
    .header { poc := 2 }, .picListProcess 3 0, .prePic, .applyRefPicSet noRefs, .newPic {}, .decoded,
    .header { idr := true, width := 3840, height := 2160 }, .picListProcess 3 0, .prePic,
    .applyRefPicSet noRefs, .newPic {}, .putBack firstSlot 0 false, .picListProcess 3 0,
    .newPic { mmu := false }, .newPic {}, .decoded, .flush 0, .output 0 false]

theorem buffers_balanced_twoSequences :
    Always (step {}) Balanced (initPicList 64 64 3 3 1 [true, true, true]) twoSequences ∧
      Guarded (step {}) (fun s k => NoneLost s (call {} s k))
        (initPicList 64 64 3 3 1 [true, true, true]) twoSequences :=
  buffers_balanced {} 64 64 3 3 1 [true, true, true] twoSequences (by decide +kernel)

/-- The pool grows by a picture while the first one is a reference. -/
def grownPool : List Call :=
  [.header { idr := true }, .picListProcess 2 0, .prePic, .newPic {}, .decoded,
    .picListProcess 3 1]

/-- `pic_init` leaves 0 in `mv_buf_index`: the new picture has the buffer of the first one. -/
theorem new_picture_names_first_buffer :
    ¬ Always (step {}) Balanced (initPicList 64 64 2 2 1 [true, true]) grownPool := by
  intro h
  have htotal : ∀ s k, True → ∃ s', step {} s k = some s' ∧ True :=
    fun s k _ => ⟨call {} s k, rfl, trivial⟩
  obtain ⟨t, ht, -⟩ := run_total htotal (s := initPicList 64 64 2 2 1 [true, true]) trivial
    grownPool
  have hbalanced := always_last h ht
  have hread : ((run (step {}) (initPicList 64 64 2 2 1 [true, true]) grownPool).map fun s =>
      ((s.mMvBUF firstSlot).used, ((s.mPIC firstSlot).created, (s.mPIC firstSlot).mvBufIndex),
        (s.mPIC thirdSlot).created, (s.mPIC thirdSlot).mvBufIndex)) =
      some (true, (true, some firstSlot), true, some firstSlot) := by decide +kernel
  have hend := read_of_run _ hread ht
  simp only [Prod.mk.injEq] at hend
  obtain ⟨p, -, huniq⟩ := (hbalanced.mvBuf firstSlot).mp hend.1
  exact absurd ((huniq firstSlot hend.2.1).trans (huniq thirdSlot hend.2.2).symm) (by decide)

end MediaModules.Hevc.Pictures
