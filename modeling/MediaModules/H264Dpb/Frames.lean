import MediaModules.H264Dpb.Runs

/-!
# What marking and output leave alone

Projections of the state. `unmarked` forgets the reference marks and the lists built from them: all
of the marking process leaves it alone. `unnumbered` forgets the picture numbers, which is all a new
picture changes of the others. `undisplayed` forgets what the display knows, `unstored` forgets the
frame stores, `beside` forgets the pictures and one frame store. `frames` keeps only which pictures and frame stores are in use and which picture lies
where.
-/
namespace MediaModules.H264Dpb

/-- A picture without its reference marks. -/
def StorablePicture.unmarked (q : StorablePicture) : StorablePicture :=
  { q with usedForReference := false, isLongTerm := false, longTermFrameIdx := 0, longTermPicNum := 0 }

/-- A frame store without its reference marks. -/
def FrameStore.unmarked (fs : FrameStore) : FrameStore :=
  { fs with isReference := .empty, isLongTerm := .empty, longTermFrameIdx := 0 }

/-- A picture without its picture numbers. -/
def StorablePicture.unnumbered (q : StorablePicture) : StorablePicture :=
  { q with picNum := 0, longTermPicNum := 0 }

/-- A frame store without its relative frame number. -/
def FrameStore.unnumbered (fs : FrameStore) : FrameStore := { fs with frameNumWrap := 0 }

/-- A frame store without what is known of its display. -/
def FrameStore.undisplayed (fs : FrameStore) : FrameStore :=
  { fs with isOutput := false, preOutput := false, showFrame := false, dataFlag := 0 }

/-- Everything but a frame store handed over. -/
def Event.lasts : Event → Bool
  | .handed _ => false
  | _ => true

/-- Everything but a picture asked for in vain. -/
def Event.happens : Event → Bool
  | .noPicture => false
  | _ => true

/-- The pictures a frame store has, and what it says of them. -/
structure Shape where
  isUsed : FieldBits
  frame : Option Nat
  topField : Option Nat
  bottomField : Option Nat
deriving DecidableEq

def FrameStore.shape (fs : FrameStore) : Shape := ⟨fs.isUsed, fs.frame, fs.topField, fs.bottomField⟩

/-- Which pictures and frame stores are in use, which picture lies where, and whether a picture
was ever asked for in vain. -/
structure Frames where
  picUsed : Nat → Bool
  shape : Nat → Shape
  fs : List Nat
  usedSize : Nat
  lastPicture : Option Nat
  decPicture : Option Nat
  noReferencePicture : Option Nat
  starved : Prop

namespace Dpb

/-- The state without its reference marks. -/
def unmarked (s : Dpb) : Dpb :=
  { s with
    pics := fun q => (s.pics q).unmarked
    stores := fun i => (s.stores i).unmarked
    fsRef := []
    fsLtref := []
    maxLongTermPicIdx := 0 }

/-- Note operation 5, if it is there. -/
def noteMmco5 (s : Dpb) (b : Bool) : Dpb :=
  { s with mVideo := { s.mVideo with lastHasMmco5 := s.mVideo.lastHasMmco5 || b } }

/-- The state without picture numbers. -/
def unnumbered (s : Dpb) : Dpb :=
  { s with
    pics := fun q => (s.pics q).unnumbered
    stores := fun i => (s.stores i).unnumbered }

/-- The state without what handing frames over changes. -/
def undisplayed (s : Dpb) : Dpb :=
  { s with
    stores := fun i => (s.stores i).undisplayed
    lastOutputPoc := 0
    firstInsertFrame := .idle
    firstOutputPoc := 0
    pocEvenOddFlag := 0
    answers := []
    trace := s.trace.filter Event.lasts }

/-- The state without its frame stores and without the pictures in use. -/
def unstored (s : Dpb) : Dpb :=
  { s with
    pics := fun q => { s.pics q with isUsed := false }
    stores := fun _ => {}
    fs := []
    usedSize := 0
    trace := [] }

/-- The state without its pictures and without one frame store. -/
def beside (i : Nat) (s : Dpb) : Dpb :=
  { s with
    pics := fun _ => {}
    stores := fun j => if j = i then {} else s.stores j
    dpbFrameCount := 0
    trace := s.trace.filter Event.happens }

def frames (s : Dpb) : Frames where
  picUsed := fun q => (s.pics q).isUsed
  shape := fun i => (s.stores i).shape
  fs := s.fs
  usedSize := s.usedSize
  lastPicture := s.lastPicture
  decPicture := s.mVideo.decPicture
  noReferencePicture := s.mVideo.noReferencePicture
  starved := Event.noPicture ∈ s.trace

theorem frames_of_unmarked {s t : Dpb} (h : t.unmarked = s.unmarked) : t.frames = s.frames :=
  show t.unmarked.frames = s.unmarked.frames from congrArg frames h

theorem frames_of_unnumbered {s t : Dpb} (h : t.unnumbered = s.unnumbered) :
    t.frames = s.frames :=
  show t.unnumbered.frames = s.unnumbered.frames from congrArg frames h

theorem frames_of_undisplayed {s t : Dpb} (h : t.undisplayed = s.undisplayed) :
    t.frames = s.frames := by
  have hstarved (s : Dpb) : s.frames = s.undisplayed.frames := by
    have hmem : (Event.noPicture ∈ s.trace.filter Event.lasts) = (Event.noPicture ∈ s.trace) := by
      simp [Event.lasts]
    exact congrArg (fun starved => { s.frames with starved := starved }) hmem.symm
  rw [hstarved t, h, hstarved s]

/-- A position among the used frame stores is one among all of them. -/
theorem fs_of_used {s : Dpb} {pos i : Nat} (h : s.used[pos]? = some i) : s.fs[pos]? = some i := by
  have hlt := (List.getElem?_eq_some_iff.mp h).1
  rw [← h]
  exact (List.getElem?_take_of_lt (Nat.lt_of_lt_of_le hlt (List.length_take_le _ _))).symm

/-! ## Writing -/

section Writing

variable (s : Dpb)

theorem modifyPic_pics (p : Nat) (f : StorablePicture → StorablePicture) (q : Nat) :
    (s.modifyPic (some p) f).pics q = if q = p then f (s.pics p) else s.pics q := rfl

theorem modifyStore_stores (i : Nat) (f : FrameStore → FrameStore) (j : Nat) :
    (s.modifyStore i f).stores j = if j = i then f (s.stores i) else s.stores j := rfl

/-- What a write to a picture leaves of it, it leaves of all of them. -/
theorem modifyPic_read {α : Type} (g : StorablePicture → α) {f : StorablePicture → StorablePicture}
    (h : ∀ q, g (f q) = g q) (p : Option Nat) (q : Nat) :
    g ((s.modifyPic p f).pics q) = g (s.pics q) := by
  cases p with
  | none => rfl
  | some p =>
    rw [modifyPic_pics]
    split
    · next hq => rw [hq, h]
    · rfl

theorem modifyStore_read {α : Type} (g : FrameStore → α) {f : FrameStore → FrameStore}
    (h : ∀ fs, g (f fs) = g fs) (i j : Nat) : g ((s.modifyStore i f).stores j) = g (s.stores j) := by
  rw [modifyStore_stores]
  split
  · next hj => rw [hj, h]
  · rfl

theorem modifyPic_stores (p : Option Nat) (f : StorablePicture → StorablePicture) :
    (s.modifyPic p f).stores = s.stores := by
  cases p <;> rfl

theorem modifyPic_if_stores (c : Prop) [Decidable c] (p : Option Nat)
    (f : StorablePicture → StorablePicture) :
    (if c then s.modifyPic p f else s).stores = s.stores := by
  rw [apply_ite Dpb.stores, modifyPic_stores, ite_self]

theorem modifyHeld_stores (i : Nat) (f : StorablePicture → StorablePicture) :
    (s.modifyHeld i f).stores = s.stores := by
  unfold modifyHeld
  dsimp only
  rw [modifyPic_if_stores, modifyPic_if_stores, modifyPic_if_stores]

theorem modifyStore_pics (i : Nat) (f : FrameStore → FrameStore) :
    (s.modifyStore i f).pics = s.pics := rfl

theorem unmarked_modifyPic {f : StorablePicture → StorablePicture}
    (h : ∀ q, (f q).unmarked = q.unmarked) (p : Option Nat) :
    (s.modifyPic p f).unmarked = s.unmarked := by
  have hpics := funext (modifyPic_read s StorablePicture.unmarked h p)
  cases p with
  | none => rfl
  | some p => exact congrArg (fun pics => { s.unmarked with pics := pics }) hpics

theorem unmarked_modifyStore {f : FrameStore → FrameStore}
    (h : ∀ fs, (f fs).unmarked = fs.unmarked) (i : Nat) :
    (s.modifyStore i f).unmarked = s.unmarked :=
  congrArg (fun stores => { s.unmarked with stores := stores })
    (funext (modifyStore_read s FrameStore.unmarked h i))

theorem unnumbered_modifyPic {f : StorablePicture → StorablePicture}
    (h : ∀ q, (f q).unnumbered = q.unnumbered) (p : Option Nat) :
    (s.modifyPic p f).unnumbered = s.unnumbered := by
  have hpics := funext (modifyPic_read s StorablePicture.unnumbered h p)
  cases p with
  | none => rfl
  | some p => exact congrArg (fun pics => { s.unnumbered with pics := pics }) hpics

theorem unnumbered_modifyStore {f : FrameStore → FrameStore}
    (h : ∀ fs, (f fs).unnumbered = fs.unnumbered) (i : Nat) :
    (s.modifyStore i f).unnumbered = s.unnumbered :=
  congrArg (fun stores => { s.unnumbered with stores := stores })
    (funext (modifyStore_read s FrameStore.unnumbered h i))

theorem undisplayed_modifyStore {f : FrameStore → FrameStore}
    (h : ∀ fs, (f fs).undisplayed = fs.undisplayed) (i : Nat) :
    (s.modifyStore i f).undisplayed = s.undisplayed :=
  congrArg (fun stores => { s.undisplayed with stores := stores })
    (funext (modifyStore_read s FrameStore.undisplayed h i))

theorem unstored_freePicture_if (c : Prop) [Decidable c] (p : Option Nat) :
    (if c then s.freePicture p else s).unstored = s.unstored := by
  have hfree : (s.freePicture p).unstored = s.unstored := by
    have hpics := funext (modifyPic_read (f := fun q => { q with isUsed := false }) s
      (fun q => ({ q with isUsed := false } : StorablePicture)) (fun _ => rfl) p)
    cases p with
    | none => rfl
    | some p => exact congrArg (fun pics => { s.unstored with pics := pics }) hpics
  rw [apply_ite unstored, hfree, ite_self]

theorem frames_modifyPic {f : StorablePicture → StorablePicture}
    (h : ∀ q, (f q).isUsed = q.isUsed) (p : Option Nat) : (s.modifyPic p f).frames = s.frames := by
  have hpics := funext (modifyPic_read s StorablePicture.isUsed h p)
  cases p with
  | none => rfl
  | some p => exact congrArg (fun used => { s.frames with picUsed := used }) hpics

theorem frames_modifyStore {f : FrameStore → FrameStore}
    (h : ∀ fs, (f fs).shape = fs.shape) (i : Nat) : (s.modifyStore i f).frames = s.frames :=
  congrArg (fun shape => { s.frames with shape := shape })
    (funext (modifyStore_read s FrameStore.shape h i))

/-- A write to a picture under a condition. -/
theorem unmarked_modifyPic_if (c : Prop) [Decidable c] {f : StorablePicture → StorablePicture}
    (h : ∀ q, (f q).unmarked = q.unmarked) (p : Option Nat) :
    (if c then s.modifyPic p f else s).unmarked = s.unmarked := by
  rw [apply_ite unmarked, unmarked_modifyPic s h, ite_self]

theorem unnumbered_modifyPic_if (c : Prop) [Decidable c] {f : StorablePicture → StorablePicture}
    (h : ∀ q, (f q).unnumbered = q.unnumbered) (p : Option Nat) :
    (if c then s.modifyPic p f else s).unnumbered = s.unnumbered := by
  rw [apply_ite unnumbered, unnumbered_modifyPic s h, ite_self]

/-- A write to the pictures of a store. -/
theorem unmarked_modifyHeld {f : StorablePicture → StorablePicture}
    (h : ∀ q, (f q).unmarked = q.unmarked) (i : Nat) :
    (s.modifyHeld i f).unmarked = s.unmarked := by
  unfold modifyHeld
  dsimp only
  rw [unmarked_modifyPic_if _ _ h, unmarked_modifyPic_if _ _ h, unmarked_modifyPic_if _ _ h]

end Writing

/-- What every turn of a loop leaves alone, the loop leaves alone. -/
theorem foldl_read {α β : Type} (read : Dpb → β) {f : Dpb → α → Dpb}
    (h : ∀ s a, read (f s a) = read s) (xs : List α) (s : Dpb) : read (xs.foldl f s) = read s := by
  induction xs generalizing s with
  | nil => rfl
  | cons a xs ih => exact (ih (f s a)).trans (h s a)

/-! ## Marking -/

section Marking

variable (s : Dpb)

@[simp] theorem unmarked_unmarkForReference (i : Nat) :
    (s.unmarkForReference i).unmarked = s.unmarked := by
  unfold unmarkForReference
  rw [unmarked_modifyStore, unmarked_modifyHeld]
  all_goals exact fun _ => rfl

@[simp] theorem unmarked_unmarkForLongTermReference (i : Nat) :
    (s.unmarkForLongTermReference i).unmarked = s.unmarked := by
  unfold unmarkForLongTermReference
  rw [unmarked_modifyStore, unmarked_modifyHeld]
  all_goals exact fun _ => rfl

@[simp] theorem unmarked_unmarkTop (i : Nat) : (s.unmarkTop i).unmarked = s.unmarked := by
  unfold unmarkTop
  dsimp only
  rw [unmarked_modifyPic_if, unmarked_modifyStore, unmarked_modifyPic]
  all_goals exact fun _ => rfl

@[simp] theorem unmarked_unmarkBottom (i : Nat) : (s.unmarkBottom i).unmarked = s.unmarked := by
  unfold unmarkBottom
  dsimp only
  rw [unmarked_modifyPic_if, unmarked_modifyStore, unmarked_modifyPic]
  all_goals exact fun _ => rfl

@[simp] theorem unmarked_unmarkLongTop (i : Nat) :
    (s.unmarkLongTop i).unmarked = s.unmarked := by
  unfold unmarkLongTop
  dsimp only
  rw [unmarked_modifyPic_if, unmarked_modifyStore, unmarked_modifyPic]
  all_goals exact fun _ => rfl

@[simp] theorem unmarked_unmarkLongBottom (i : Nat) :
    (s.unmarkLongBottom i).unmarked = s.unmarked := by
  unfold unmarkLongBottom
  dsimp only
  rw [unmarked_modifyPic_if, unmarked_modifyStore, unmarked_modifyPic]
  all_goals exact fun _ => rfl

@[simp] theorem unmarked_unmarkShortFrame (picNumX : Int) (stores : List Nat) :
    (s.unmarkShortFrame picNumX stores).unmarked = s.unmarked := by
  induction stores with
  | nil => rfl
  | cons i rest ih =>
    rw [unmarkShortFrame, apply_ite unmarked, ih, unmarked_unmarkForReference, ite_self]

@[simp] theorem unmarked_unmarkShortField (picNumX : Int) (stores : List Nat) :
    (s.unmarkShortField picNumX stores).unmarked = s.unmarked := by
  induction stores with
  | nil => rfl
  | cons i rest ih =>
    rw [unmarkShortField, apply_ite unmarked, apply_ite unmarked, ih, unmarked_unmarkTop,
      unmarked_unmarkBottom, ite_self, ite_self]

@[simp] theorem unmarked_unmarkLongField (longTermPicNum : Int) (stores : List Nat) :
    (s.unmarkLongField longTermPicNum stores).unmarked = s.unmarked := by
  induction stores with
  | nil => rfl
  | cons i rest ih =>
    rw [unmarkLongField, apply_ite unmarked, apply_ite unmarked, ih, unmarked_unmarkLongTop,
      unmarked_unmarkLongBottom, ite_self, ite_self]

/-- A turn that unmarks a store under a condition. -/
theorem unmarked_unmarkLong_if (c : Prop) [Decidable c] (i : Nat) :
    (if c then s.unmarkForLongTermReference i else s).unmarked = s.unmarked := by
  rw [apply_ite unmarked, unmarked_unmarkForLongTermReference, ite_self]

@[simp] theorem unmarked_unmarkLongFrame (longTermPicNum : Int) (stores : List Nat) :
    (s.unmarkLongFrame longTermPicNum stores).unmarked = s.unmarked :=
  foldl_read unmarked (fun s _ => unmarked_unmarkLong_if s _ _) stores s

@[simp] theorem unmarked_mmUnmarkShort (p : Nat) (d : Int) :
    (s.mmUnmarkShortTermForReference p d).unmarked = s.unmarked := by
  unfold mmUnmarkShortTermForReference
  dsimp only
  rw [apply_ite unmarked, unmarked_unmarkShortFrame, unmarked_unmarkShortField, ite_self]

@[simp] theorem unmarked_mmUnmarkLong (p : Nat) (n : Int) :
    (s.mmUnmarkLongTermForReference p n).unmarked = s.unmarked := by
  rw [mmUnmarkLongTermForReference, apply_ite unmarked, unmarked_unmarkLongFrame,
    unmarked_unmarkLongField, ite_self]

@[simp] theorem unmarked_unmarkLongFrameByIdx (k : Int) :
    (s.unmarkLongTermFrameForReferenceByFrameIdx k).unmarked = s.unmarked :=
  foldl_read unmarked (fun s _ => unmarked_unmarkLong_if s _ _) s.fsLtref s

theorem unmarked_unmark3Top (currPicNum : Int) (markCurrent : Bool) (i : Nat) :
    (s.unmark3Top currPicNum markCurrent i).unmarked = s.unmarked := by
  simp only [unmark3Top, unmark1, unmark2, apply_ite unmarked, ite_self,
    unmarked_unmarkForLongTermReference]

theorem unmarked_unmark3Bottom (currPicNum : Int) (markCurrent : Bool) (i : Nat) :
    (s.unmark3Bottom currPicNum markCurrent i).unmarked = s.unmarked := by
  simp only [unmark3Bottom, unmark1, unmark2, apply_ite unmarked, ite_self,
    unmarked_unmarkForLongTermReference]

@[simp] theorem unmarked_unmarkLongFieldByIdx (t : PictureStructure) (k : Int)
    (markCurrent : Bool) (currPicNum : Int) :
    (s.unmarkLongTermFieldForReferenceByFrameIdx t k markCurrent currPicNum).unmarked =
      s.unmarked := by
  refine foldl_read unmarked (fun s i => ?_) s.fsLtref s
  split
  · cases t with
    | frame => rfl
    | topField => exact unmarked_unmark3Top s _ _ _
    | bottomField => exact unmarked_unmark3Bottom s _ _ _
  · rfl

@[simp] theorem unmarked_markFrameLongTerm (i : Nat) (k : Int) :
    (s.markFrameLongTerm i k).unmarked = s.unmarked := by
  unfold markFrameLongTerm
  dsimp only
  rw [unmarked_modifyStore, apply_ite unmarked, unmarked_modifyPic, unmarked_modifyPic,
    unmarked_modifyPic, ite_self]
  all_goals exact fun _ => rfl

@[simp] theorem unmarked_markFieldLongTerm (i : Nat) (parity : PictureStructure)
    (field : Option Nat) (k add : Int) :
    (s.markFieldLongTerm i parity field k add).unmarked = s.unmarked := by
  unfold markFieldLongTerm
  dsimp only
  rw [unmarked_modifyPic_if, unmarked_modifyStore, unmarked_modifyPic]
  all_goals exact fun _ => rfl

@[simp] theorem unmarked_markLongFrame (k picNumX : Int) (stores : List Nat) :
    (s.markLongFrame k picNumX stores).unmarked = s.unmarked := by
  induction stores with
  | nil => rfl
  | cons i rest ih =>
    rw [markLongFrame, apply_ite unmarked, ih, unmarked_markFrameLongTerm, ite_self]

@[simp] theorem unmarked_markLongField (k picNumX addTop addBottom : Int) (stores : List Nat) :
    (s.markLongField k picNumX addTop addBottom stores).unmarked = s.unmarked := by
  induction stores with
  | nil => rfl
  | cons i rest ih =>
    rw [markLongField, apply_ite unmarked, apply_ite unmarked, ih, unmarked_markFieldLongTerm,
      unmarked_markFieldLongTerm, ite_self, ite_self]

@[simp] theorem unmarked_markPicLongTerm (p : Nat) (k picNumX : Int) :
    (s.markPicLongTerm p k picNumX).unmarked = s.unmarked := by
  unfold markPicLongTerm
  split
  · exact unmarked_markLongFrame s _ _ _
  · exact unmarked_markLongField s _ _ _ _ _
  · exact unmarked_markLongField s _ _ _ _ _

@[simp] theorem unmarked_mmAssign (p : Nat) (d k : Int) :
    (s.mmAssignLongTermFrameIdx p d k).unmarked = s.unmarked := by
  unfold mmAssignLongTermFrameIdx
  dsimp only
  rw [unmarked_markPicLongTerm, apply_ite unmarked, unmarked_unmarkLongFrameByIdx,
    unmarked_unmarkLongFieldByIdx, ite_self]

@[simp] theorem unmarked_mmUpdateMax (n : Int) :
    (s.mmUpdateMaxLongTermFrameIdx n).unmarked = s.unmarked :=
  foldl_read unmarked (fun s _ => unmarked_unmarkLong_if s _ _) s.fsLtref
    { s with maxLongTermPicIdx := n - 1 }

@[simp] theorem unmarked_mmUnmarkAllShort :
    s.mmUnmarkAllShortTermForReference.unmarked = s.unmarked :=
  foldl_read unmarked (fun s i => unmarked_unmarkForReference s i) s.fsRef s

@[simp] theorem unmarked_mmMarkCurrent (p : Nat) (k : Int) :
    (s.mmMarkCurrentPictureLongTerm p k).unmarked = s.unmarked := by
  unfold mmMarkCurrentPictureLongTerm
  dsimp only
  rw [unmarked_modifyPic, apply_ite unmarked, unmarked_unmarkLongFrameByIdx,
    unmarked_unmarkLongFieldByIdx, ite_self]
  exact fun _ => rfl

theorem noteMmco5_false : s.noteMmco5 false = s := by
  unfold noteMmco5
  rw [Bool.or_false]

/-- The memory management control operations touch nothing but marks; operation 5 is noted. -/
theorem unmarked_memoryManagementControl (p : Nat) (m : DecRefPicMarking) :
    (s.memoryManagementControl p m).unmarked =
      s.unmarked.noteMmco5 (m.memoryManagementControlOperation = 5) := by
  have hother (h : m.memoryManagementControlOperation ≠ 5) :
      s.unmarked.noteMmco5 (m.memoryManagementControlOperation = 5) = s.unmarked := by
    rw [decide_eq_false h, noteMmco5_false]
  unfold memoryManagementControl
  split
  · next h =>
    rw [hother (by omega)]
    exact unmarked_mmUnmarkShort s _ _
  · next h =>
    rw [hother (by omega)]
    exact unmarked_mmUnmarkLong s _ _
  · next h =>
    rw [hother (by omega)]
    exact unmarked_mmAssign s _ _ _
  · next h =>
    rw [hother (by omega)]
    exact unmarked_mmUpdateMax s _
  · next h =>
    have hunmark : s.mmUnmarkAllShortTermForReference.mmUnmarkAllLongTermForReference.unmarked =
        s.unmarked :=
      (unmarked_mmUpdateMax _ _).trans (unmarked_mmUnmarkAllShort s)
    rw [decide_eq_true h]
    unfold noteMmco5
    rw [Bool.or_true]
    exact congrArg (fun d : Dpb => { d with mVideo := { d.mVideo with lastHasMmco5 := true } })
      hunmark
  · next h =>
    rw [hother (by omega)]
    exact unmarked_mmMarkCurrent s _ _
  · next h _ => rw [hother h]

theorem frames_memoryManagementControl (p : Nat) (m : DecRefPicMarking) :
    (s.memoryManagementControl p m).frames = s.frames :=
  show (s.memoryManagementControl p m).unmarked.frames = s.unmarked.frames by
    rw [unmarked_memoryManagementControl]
    rfl

/-- The operations of a picture, one after the other. -/
theorem unmarked_adaptiveLoop (p : Nat) (ms : List DecRefPicMarking) :
    (ms.foldl (fun s m => s.memoryManagementControl p m) s).unmarked =
      s.unmarked.noteMmco5 (ms.any fun m => m.memoryManagementControlOperation = 5) := by
  induction ms generalizing s with
  | nil => exact (noteMmco5_false s.unmarked).symm
  | cons m ms ih =>
    rw [List.foldl_cons, ih, unmarked_memoryManagementControl, List.any_cons]
    unfold noteMmco5
    rw [← Bool.or_assoc]

@[simp] theorem unmarked_slidingWindow (p : Nat) :
    (s.slidingWindowMemoryManagement p).unmarked = s.unmarked := by
  unfold slidingWindowMemoryManagement
  dsimp only
  rw [unmarked_modifyPic, apply_ite unmarked]
  · split
    · split
      · exact unmarked_unmarkForReference s _
      · rfl
    · rfl
  · exact fun _ => rfl

@[simp] theorem unmarked_duplicateLoop (p fuel idx : Nat) :
    (duplicateLoop p fuel idx s).2.unmarked = s.unmarked := by
  induction fuel generalizing idx s with
  | zero => rfl
  | succ fuel ih =>
    unfold duplicateLoop
    split
    · rfl
    · next i _ =>
      split
      · split
        · rfl
        · exact (ih _ _).trans (unmarked_unmarkForReference s i)
      · exact ih _ _

@[simp] theorem unmarked_dropDuplicates (p : Nat) :
    (s.dropDuplicates p).2.unmarked = s.unmarked := by
  unfold dropDuplicates
  split
  · exact unmarked_duplicateLoop s _ _ _
  · rfl

end Marking

/-! ## Numbering -/

section Numbering

variable (s : Dpb)

theorem unnumbered_updateFrameNum (i : Nat) :
    (s.updateFrameNum i).unnumbered = s.unnumbered := by
  unfold updateFrameNum
  dsimp only
  split
  · rw [unnumbered_modifyPic, unnumbered_modifyStore]
    all_goals exact fun _ => rfl
  · rfl

theorem unnumbered_updateLongFrameNum (i : Nat) :
    (s.updateLongFrameNum i).unnumbered = s.unnumbered := by
  unfold updateLongFrameNum
  dsimp only
  rw [unnumbered_modifyPic_if]
  exact fun _ => rfl

theorem unnumbered_updateFieldNum (addTop addBottom : Int) (i : Nat) :
    (updateFieldNum addTop addBottom s i).unnumbered = s.unnumbered := by
  unfold updateFieldNum
  dsimp only
  split
  · rfl
  · rw [apply_ite unnumbered, unnumbered_modifyPic_if, unnumbered_modifyPic_if,
      unnumbered_modifyStore, ite_self]
    all_goals exact fun _ => rfl

theorem unnumbered_updateLongFieldNum (addTop addBottom : Int) (i : Nat) :
    (updateLongFieldNum addTop addBottom s i).unnumbered = s.unnumbered := by
  unfold updateLongFieldNum
  dsimp only
  rw [apply_ite unnumbered, unnumbered_modifyPic_if, unnumbered_modifyPic_if, ite_self]
  all_goals exact fun _ => rfl

/-- `update_pic_num` touches nothing but picture numbers. -/
@[simp] theorem unnumbered_updatePicNum : s.updatePicNum.unnumbered = s.unnumbered := by
  unfold updatePicNum
  dsimp only
  split
  · rw [foldl_read unnumbered unnumbered_updateLongFrameNum,
      foldl_read unnumbered unnumbered_updateFrameNum]
  · rw [foldl_read unnumbered (unnumbered_updateLongFieldNum · 1 0),
      foldl_read unnumbered (unnumbered_updateFieldNum · 1 0)]
  · rw [foldl_read unnumbered (unnumbered_updateLongFieldNum · 0 1),
      foldl_read unnumbered (unnumbered_updateFieldNum · 0 1)]

end Numbering

/-! ## Handing frames over -/

section Output

variable (s : Dpb)

@[simp] theorem undisplayed_setFrameOutputFlag (index : Nat) :
    (s.setFrameOutputFlag index).undisplayed = s.undisplayed := by
  apply undisplayed_modifyStore
  exact fun _ => rfl

@[simp] theorem undisplayed_prepareDisplayBuf (i : Nat) :
    (s.prepareDisplayBuf i).2.undisplayed = s.undisplayed := by
  unfold prepareDisplayBuf
  split
  · rfl
  · dsimp only
    rw [foldl_read undisplayed undisplayed_setFrameOutputFlag, undisplayed_modifyStore]
    · rfl
    · exact fun _ => rfl

@[simp] theorem undisplayed_markFirstOutput (i : Nat) :
    (s.markFirstOutput i).undisplayed = s.undisplayed := by
  unfold markFirstOutput
  split
  · split
    · apply undisplayed_modifyStore
      exact fun _ => rfl
    · split <;> rfl
  · rfl

@[simp] theorem undisplayed_handOver (i : Nat) (poc : Int) :
    (s.handOver i poc).2.undisplayed = s.undisplayed := by
  have hprep : ((s.markFirstOutput i).prepareDisplayBuf i).2.undisplayed = s.undisplayed := by
    rw [undisplayed_prepareDisplayBuf, undisplayed_markFirstOutput]
  unfold handOver
  dsimp only
  split
  · split
    · have hmark := undisplayed_modifyStore (f := fun fs => { fs with preOutput := true })
        ((s.markFirstOutput i).prepareDisplayBuf i).2 (fun _ => rfl) i
      exact hmark.trans hprep
    · exact hprep
  · exact hprep

@[simp] theorem undisplayed_outputSmallest : s.outputSmallest.2.undisplayed = s.undisplayed := by
  unfold outputSmallest
  split
  · rfl
  · exact undisplayed_handOver s _ _

@[simp] theorem undisplayed_outputFrames (flushFlag : Bool) :
    (s.outputFrames flushFlag).2.undisplayed = s.undisplayed := by
  unfold outputFrames
  split
  · exact undisplayed_outputSmallest s
  · split
    · rfl
    · dsimp only
      split
      · exact undisplayed_outputSmallest _
      · rfl

/-- Handing frames over touches nothing but what the display knows. -/
@[simp] theorem undisplayed_outputAll (flushFlag : Bool) :
    (s.outputAll flushFlag).undisplayed = s.undisplayed := by
  have h (fuel : Nat) (s : Dpb) : (outputLoop flushFlag fuel s).undisplayed = s.undisplayed := by
    induction fuel generalizing s with
    | zero => rfl
    | succ fuel ih =>
      unfold outputLoop
      dsimp only
      split
      · rw [ih, undisplayed_outputFrames]
      · exact undisplayed_outputFrames s flushFlag
  exact h _ s

@[simp] theorem undisplayed_showLoneField (p : Nat) :
    (s.showLoneField p).undisplayed = s.undisplayed := by
  unfold showLoneField
  split
  · rfl
  · split
    · apply undisplayed_modifyStore
      exact fun _ => rfl
    · rfl

@[simp] theorem undisplayed_outputAfterStore : s.outputAfterStore.undisplayed = s.undisplayed := by
  unfold outputAfterStore
  dsimp only
  split
  · exact undisplayed_outputAll s _
  · rfl

@[simp] theorem undisplayed_outputAfterPair : s.outputAfterPair.undisplayed = s.undisplayed := by
  unfold outputAfterPair
  split
  · exact undisplayed_outputAll s _
  · rfl

end Output

/-! ## Inserting -/

section Inserting

variable (s : Dpb)

@[simp] theorem beside_modifyPic (i : Nat) (p : Option Nat)
    (f : StorablePicture → StorablePicture) : (s.modifyPic p f).beside i = s.beside i := by
  cases p <;> rfl

@[simp] theorem beside_modifyStore (i : Nat) (f : FrameStore → FrameStore) :
    (s.modifyStore i f).beside i = s.beside i := by
  have hstores : (fun j => if j = i then {} else (s.modifyStore i f).stores j) =
      fun j => if j = i then {} else s.stores j := by
    funext j
    rw [modifyStore_stores]
    split <;> rfl
  exact congrArg (fun stores => { s.beside i with stores := stores }) hstores

@[simp] theorem beside_getNewPic (i : Nat) (t : PictureStructure) :
    (s.getNewPic t).2.beside i = s.beside i := by
  unfold getNewPic
  split <;> rfl

theorem beside_dpbSplitField (i : Nat) : (s.dpbSplitField i).beside i = s.beside i := by
  unfold dpbSplitField
  dsimp only
  split
  · simp only [beside_modifyPic, beside_modifyStore]
  · split
    · simp only [beside_modifyStore, beside_getNewPic]
    · unfold shareFrame
      simp only [beside_modifyPic, beside_modifyStore, beside_getNewPic]

theorem beside_dpbCombineField (i : Nat) : (s.dpbCombineField i).beside i = s.beside i := by
  have hframe : (if (s.stores i).frame.isNone then
      (s.getNewPic .frame).2.modifyStore i fun fs => { fs with frame := (s.getNewPic .frame).1 }
      else s).beside i = s.beside i := by
    rw [apply_ite (beside i), beside_modifyStore, beside_getNewPic, ite_self]
  have hjoin (t : Dpb) (frame top btm : Option Nat) :
      (t.joinFields i frame top btm).beside i = t.beside i := by
    unfold joinFields
    simp only [beside_modifyPic, beside_modifyStore]
  unfold dpbCombineField
  dsimp only
  rw [apply_ite (beside i), hjoin, ite_self]
  exact hframe

/-- To put a picture into a frame store touches no other store. -/
theorem beside_insertPicture (i p : Nat) (dataFlag : UInt8) :
    (s.insertPictureInDpb i p dataFlag).beside i = s.beside i := by
  have hput : ((s.countInserted i p dataFlag).putPicture i p).beside i = s.beside i := by
    unfold putPicture countInserted
    simp only [beside_modifyPic, beside_modifyStore]
    rfl
  unfold insertPictureInDpb
  dsimp only
  rw [beside_modifyStore, ← hput]
  unfold generateViews
  split
  · exact beside_dpbSplitField _ i
  · split
    · exact beside_dpbCombineField _ i
    · exact beside_modifyStore _ i _

end Inserting

/-! ## Removing -/

section Removing

variable (s : Dpb)

@[simp] theorem unstored_removeFrameFromDpb (pos : Nat) :
    (s.removeFrameFromDpb pos).unstored = s.unstored := by
  have hfree (i : Nat) : (s.freeStore i).unstored = s.unstored := by
    unfold freeStore
    dsimp only
    show unstored (if _ then freePicture _ _ else _) = _
    rw [unstored_freePicture_if, unstored_freePicture_if, unstored_freePicture_if]
  unfold removeFrameFromDpb
  split
  · rfl
  · exact hfree _

@[simp] theorem unstored_removeUnused : s.removeUnusedFrameFromDpb.2.unstored = s.unstored := by
  unfold removeUnusedFrameFromDpb
  split
  · exact unstored_removeFrameFromDpb s _
  · rfl

/-- Removing frame stores leaves the rest alone. -/
@[simp] theorem unstored_removeAllUnused : s.removeAllUnused.2.unstored = s.unstored := by
  have h (fuel : Nat) (s : Dpb) : (removeUnusedLoop fuel s).2.unstored = s.unstored := by
    induction fuel generalizing s with
    | zero => rfl
    | succ fuel ih =>
      unfold removeUnusedLoop
      dsimp only
      split
      · rw [ih, unstored_removeUnused]
      · exact unstored_removeUnused s
  exact h _ s

end Removing

end Dpb

end MediaModules.H264Dpb
