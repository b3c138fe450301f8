import MediaModules.H264Dpb.Frames
import Mathlib.Logic.Relation

/-!
# The calls as moves

Everything the calls do to the buffer short of putting a picture into a frame store is a sequence
of a few moves. What every move keeps, the calls keep.
-/
namespace MediaModules.H264Dpb.Dpb

open MediaModules.H264Dpb

/-- The state without what only steers output and picture order count. -/
def unsteered (s : Dpb) : Dpb :=
  { s with
    lastOutputPoc := 0
    maxLongTermPicIdx := 0
    firstInsertFrame := .idle
    mVideo := { s.mVideo with
      lastHasMmco5 := false
      lastPicBottomField := false
      preFrameNum := 0 } }

/-- A move, with `d` the current picture. -/
inductive Move (d : Option Nat) : Dpb → Dpb → Prop
  | steer {s t : Dpb} (h : t.unsteered = s.unsteered) : Move d s t
  | unmark (s : Dpb) (i : Nat) : Move d s (s.unmarkForReference i)
  | unmarkLong (s : Dpb) (i : Nat) : Move d s (s.unmarkForLongTermReference i)
  | command (s : Dpb) (p : Nat) (m : DecRefPicMarking) (h : d = some p) :
      Move d s (s.memoryManagementControl p m)
  | refList (s : Dpb) : Move d s s.updateRefList
  | ltrefList (s : Dpb) : Move d s s.updateLtrefList
  | current (s : Dpb) (p : Nat) (f : StorablePicture → StorablePicture) (h : d = some p)
      (hf : ∀ q, (f q).isUsed = q.isUsed) : Move d s (s.modifyPic (some p) f)
  | forget (s : Dpb) : Move d s { s with lastPicture := none }
  | remove (s : Dpb) (pos i : Nat) (hpos : s.used[pos]? = some i)
      (hout : (s.stores i).isOutput = true) (href : s.isUsedForReference i = false) :
      Move d s (s.removeFrameFromDpb pos)
  | output (s : Dpb) (flushFlag : Bool) : Move d s (s.outputFrames flushFlag).2
  | flag (s : Dpb) (index : Nat) : Move d s (s.setFrameOutputFlag index)
  | lone (s : Dpb) (p : Nat) : Move d s (s.showLoneField p)

/-- A sequence of moves. -/
abbrev Moves (d : Option Nat) : Dpb → Dpb → Prop := Relation.ReflTransGen (Move d)

variable {d : Option Nat} {s t u : Dpb}

/-- What every move keeps, a sequence of moves keeps. -/
theorem Moves.keep {P : Dpb → Prop} (hmove : ∀ s t, Move d s t → P s → P t) (h : Moves d s t)
    (hs : P s) : P t := by
  induction h with
  | refl => exact hs
  | tail _ hlast ih => exact hmove _ _ hlast ih

theorem moves_ite {c : Prop} [Decidable c] (ht : Moves d s t) (hu : Moves d s u) :
    Moves d s (if c then t else u) := by
  split
  · exact ht
  · exact hu

theorem moves_foldl {α : Type} {f : Dpb → α → Dpb} (h : ∀ s a, Moves d s (f s a)) (xs : List α)
    (s : Dpb) : Moves d s (xs.foldl f s) := by
  induction xs generalizing s with
  | nil => exact .refl
  | cons a xs ih => exact (h s a).trans (ih (f s a))

/-! ## Removing and output -/

theorem used_of_unusedPos {pos : Nat} (h : s.unusedPos = some pos) :
    ∃ i, s.used[pos]? = some i ∧ (s.stores i).isOutput = true ∧ s.isUsedForReference i = false := by
  obtain ⟨hlt, hp, -⟩ := List.findIdx?_eq_some_iff_getElem.mp h
  refine ⟨s.used[pos], List.getElem?_eq_getElem hlt, ?_⟩
  simpa using hp

variable (d)

theorem moves_removeUnused (s : Dpb) : Moves d s s.removeUnusedFrameFromDpb.2 := by
  unfold removeUnusedFrameFromDpb
  split
  · next pos hpos =>
    obtain ⟨i, hi, hout, href⟩ := used_of_unusedPos hpos
    exact .single (.remove s pos i hi hout href)
  · exact .refl

theorem moves_removeAllUnused (s : Dpb) : Moves d s s.removeAllUnused.2 := by
  have hloop (fuel : Nat) (s : Dpb) : Moves d s (removeUnusedLoop fuel s).2 := by
    induction fuel generalizing s with
    | zero => exact .refl
    | succ fuel ih =>
      unfold removeUnusedLoop
      dsimp only
      split
      · exact (moves_removeUnused d s).trans (ih _)
      · exact moves_removeUnused d s
  exact hloop _ s

theorem moves_outputAll (s : Dpb) (flushFlag : Bool) : Moves d s (s.outputAll flushFlag) := by
  have hloop (fuel : Nat) (s : Dpb) : Moves d s (outputLoop flushFlag fuel s) := by
    induction fuel generalizing s with
    | zero => exact .refl
    | succ fuel ih =>
      unfold outputLoop
      dsimp only
      split
      · exact (Relation.ReflTransGen.single (.output s flushFlag)).trans (ih _)
      · exact .single (.output s flushFlag)
  exact hloop _ s

theorem moves_unmarkAll (s : Dpb) (xs : List Nat) : Moves d s (xs.foldl unmarkForReference s) :=
  moves_foldl (fun s i => .single (.unmark s i)) xs s

theorem moves_unmarkOneOutFrame (s : Dpb) : Moves d s s.unmarkOneOutFrame.2 := by
  have hloop (xs : List Nat) (r : Bool × Dpb) : Moves d r.2 (xs.foldl (fun r i =>
      if (r.2.stores i).isOutput then (true, r.2.unmarkForReference i) else r) r).2 := by
    induction xs generalizing r with
    | nil => exact .refl
    | cons i rest ih =>
      rw [List.foldl_cons]
      refine Relation.ReflTransGen.trans ?_ (ih _)
      split
      · exact .single (.unmark r.2 i)
      · exact .refl
  exact hloop s.used (false, s)

theorem moves_unmarkOneErrorOutFrame (s : Dpb) : Moves d s s.unmarkOneErrorOutFrame.2 := by
  unfold unmarkOneErrorOutFrame
  split
  · exact .single (.unmark s _)
  · exact .refl

theorem moves_bufmgrRemoveUnused (s : Dpb) (forceFlag : Nat) :
    Moves d s (s.bufmgrH264RemoveUnusedFrame forceFlag) := by
  have hrefresh (s : Dpb) : Moves d s s.updateRefList.removeUnusedFrameFromDpb.2 :=
    (Relation.ReflTransGen.single (.refList s)).trans (moves_removeUnused d _)
  have hall := moves_removeAllUnused d s
  unfold bufmgrH264RemoveUnusedFrame
  dsimp only
  split
  · exact hall
  · split
    · have hone := hall.trans (moves_unmarkOneOutFrame d _)
      exact moves_ite (hone.trans (hrefresh _)) hone
    · split
      · have hone := hall.trans (moves_unmarkOneErrorOutFrame d _)
        exact moves_ite (hone.trans (hrefresh _)) hone
      · exact hall

theorem moves_flush (s : Dpb) : Moves d s s.flushDpb := by
  have hpoc (s : Dpb) (poc : Int) : Move d s { s with lastOutputPoc := poc } := .steer rfl
  unfold flushDpb
  split
  · exact (((moves_unmarkAll d s s.used).trans (moves_removeAllUnused d _)).trans
      (moves_outputAll d _ true)).trans (.single (hpoc _ INT_MIN))
  · exact .refl

/-! ## Marking -/

theorem moves_noOutputOfPriorPics (s : Dpb) : Moves d s s.noOutputOfPriorPics := by
  unfold noOutputOfPriorPics
  refine moves_foldl (f := fun (s : Dpb) (r : Nat × Nat) => s.noOutputTurn r.1 r.2) (fun s r => ?_)
    s.used.zipIdx s
  have hunmark : Moves d s (if ((s.unmarkForReference r.1).stores r.1).isLongTerm ≠ .empty then
      (s.unmarkForReference r.1).unmarkForLongTermReference r.1 else s.unmarkForReference r.1) :=
    (Relation.ReflTransGen.single (.unmark s r.1)).trans
      (moves_ite (.single (.unmarkLong _ r.1)) .refl)
  unfold noOutputTurn
  exact hunmark.trans (moves_ite (.single (.flag _ r.2)) .refl)

variable {d}

theorem moves_markIdrPicture (s : Dpb) {p : Nat} (hd : d = some p) :
    Moves d s (s.markIdrPicture p) := by
  have hmax (n : Int) : Move d s { s with maxLongTermPicIdx := n } := .steer rfl
  unfold markIdrPicture
  split
  · exact (Relation.ReflTransGen.single (hmax 0)).tail (.current _ p _ hd fun _ => rfl)
  · exact (Relation.ReflTransGen.single (hmax (-1))).tail (.current _ p _ hd fun _ => rfl)

theorem moves_beforeIdr (d : Option Nat) (s : Dpb) (p : Nat) : Moves d s
    { ({ s.dropPriorPics p with lastPicture := none } : Dpb).updateRefList.updateLtrefList with
      lastOutputPoc := INT_MIN } := by
  have hprior : Moves d s (s.dropPriorPics p) :=
    moves_ite (moves_noOutputOfPriorPics d s) (moves_flush d s)
  have hforget (s : Dpb) : Moves d s { s with lastPicture := none }.updateRefList.updateLtrefList :=
    ((Relation.ReflTransGen.single (.forget s)).tail (.refList _)).tail (.ltrefList _)
  have hpoc (s : Dpb) (poc : Int) : Move d s { s with lastOutputPoc := poc } := .steer rfl
  exact (hprior.trans (hforget _)).tail (hpoc _ INT_MIN)

theorem moves_idr (s : Dpb) {p : Nat} (hd : d = some p) : Moves d s (s.idrMemoryManagement p) :=
  (moves_beforeIdr d s p).trans (moves_markIdrPicture _ hd)

theorem resetPicture_isUsed (q : StorablePicture) : (resetPicture q).isUsed = q.isUsed := by
  unfold resetPicture
  dsimp only
  split <;> rfl

theorem moves_adaptiveLoop (s : Dpb) {p : Nat} (hd : d = some p) (ms : List DecRefPicMarking) :
    Moves d s (ms.foldl (fun s m => s.memoryManagementControl p m) s) :=
  moves_foldl (fun s m => .single (.command s p m hd)) ms s

theorem moves_adaptive (s : Dpb) {p : Nat} (hd : d = some p) :
    Moves d s (s.adaptiveMemoryManagement p) := by
  have hclear : Move d s { s with mVideo := { s.mVideo with lastHasMmco5 := false } } := .steer rfl
  have hloop := (Relation.ReflTransGen.single hclear).trans
    (moves_adaptiveLoop _ hd s.mSlice.decRefPicMarkingBuffer)
  unfold adaptiveMemoryManagement
  exact moves_ite ((hloop.tail (.current _ p resetPicture hd resetPicture_isUsed)).trans
    (moves_flush d _)) hloop

/-! ## Storing -/

theorem moves_storeMarking (s : Dpb) {p : Nat} (hd : d = some p) :
    Moves d s (s.storeMarking p) := by
  have hnote : Moves d s (s.notePicture p) := .single (.steer rfl)
  have hskip (s : Dpb) : Moves d s s.skipFirstOutput := by
    unfold skipFirstOutput
    exact moves_ite (.single (.steer rfl)) .refl
  unfold storeMarking
  exact moves_ite ((hnote.trans (moves_idr _ hd)).trans (hskip _))
    (moves_ite (hnote.trans (moves_adaptive _ hd)) hnote)

theorem moves_slideWindow (s : Dpb) {p : Nat} (hd : d = some p) :
    Moves d s (s.slideWindow p) := by
  unfold slideWindow slidingWindowMemoryManagement
  refine moves_ite (Relation.ReflTransGen.tail ?_ (.current _ p _ hd fun _ => rfl)) .refl
  refine moves_ite ?_ .refl
  split
  · exact (Relation.ReflTransGen.single (.unmark s _)).tail (.refList _)
  · exact .refl

theorem moves_makeRoom (s : Dpb) {p : Nat} (hd : d = some p) : Moves d s (s.makeRoom p) := by
  unfold makeRoom
  exact (((moves_slideWindow s hd).trans (moves_removeAllUnused d _)).tail (.lone _ p)).trans
    (moves_outputAll d _ false)

variable (d)

theorem moves_dropDuplicates (s : Dpb) (p : Nat) : Moves d s (s.dropDuplicates p).2 := by
  have hloop (fuel idx : Nat) (s : Dpb) : Moves d s (duplicateLoop p fuel idx s).2 := by
    induction fuel generalizing idx s with
    | zero => exact .refl
    | succ fuel ih =>
      unfold duplicateLoop
      split
      · exact .refl
      · next i _ =>
        split
        · split
          · exact .refl
          · exact ((Relation.ReflTransGen.single (.unmark s i)).tail (.refList _)).trans (ih _ _)
        · exact ih _ _
  unfold dropDuplicates
  split
  · exact hloop _ _ _
  · exact .refl

end MediaModules.H264Dpb.Dpb
