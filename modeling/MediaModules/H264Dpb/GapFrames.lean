import MediaModules.H264Dpb.FrameNumGap
import MediaModules.H264Dpb.SlidingWindow

/-!
# The frames of a gap

A picture of a gap is taken beside the current picture, if there is one. A turn of
`fill_frame_num_gap` that stores it leaves a whole frame at the end of the buffer when the slice is
one of a frame; the picture is a short-term reference unless the entry of the pool it was made from
still carries the flags of a long-term IDR picture.
-/
namespace MediaModules.H264Dpb

namespace Frames

variable {f : Frames} {p : Option Nat}

/-- The buffer without its current picture, and with another one in its place. -/
def swap (f : Frames) (p : Option Nat) : Frames :=
  { f with
    picUsed := fun q => if f.decPicture = some q then false else f.picUsed q
    decPicture := p }

/-- The buffer is in order with the other picture, and the current one is in use. -/
structure Gapped (f : Frames) (p : Option Nat) : Prop where
  pooled : (f.swap p).Pooled p
  current : ∀ c, f.decPicture = some c → f.picUsed c = true

theorem Fresh.swap {qs : List Nat} (h : f.Fresh qs) (p : Option Nat) : (f.swap p).Fresh qs := by
  refine ⟨h.nodup, fun q hm => ?_, h.lt⟩
  show (if f.decPicture = some q then false else f.picUsed q) = false
  rw [h.unused q hm, ite_self]

theorem Pooled.gapped {d : Option Nat} (h : f.Pooled d) : f.Gapped none := by
  refine ⟨?_, fun c hc => ?_⟩
  · cases d with
    | none =>
      have hcur : f.decPicture = none := h.current
      have hused : (fun q => if f.decPicture = some q then false else f.picUsed q) = f.picUsed := by
        rw [hcur]
        rfl
      have hswap : f.swap none = f := by
        unfold swap
        rw [hused]
        exact congrArg (fun c => { f with decPicture := c }) hcur.symm
      exact hswap ▸ h
    | some c =>
      have hcur : f.decPicture = some c := h.current
      have hswap : f.swap none = { f.free [c] with decPicture := none } := by
        unfold swap free
        simp [hcur, eq_comm]
      exact hswap ▸ h.drop
  · apply (h.owned.used_iff_root c).mpr
    unfold roots
    rw [hc]
    simp

namespace Gapped

/-- There are two pictures to give beside all those in use. -/
theorem room (h : f.Gapped p) : f.Room := by
  intro qs hlen
  refine freePic_isSome (r := qs ++ (f.decPicture.toList ++ (f.swap p).roots)) (fun q hq => ?_) ?_
  · have hq : (if q ∈ qs then true else f.picUsed q) = true := hq
    by_cases hm : q ∈ qs
    · exact List.mem_append_left _ hm
    · rw [if_neg hm] at hq
      apply List.mem_append_right
      by_cases hc : f.decPicture = some q
      · exact List.mem_append_left _ (by rw [hc]; exact List.mem_singleton.mpr rfl)
      · apply List.mem_append_right
        apply (h.pooled.owned.used_iff_root q).mp
        show (if f.decPicture = some q then false else f.picUsed q) = true
        rw [if_neg hc, hq]
  · have hroots := h.pooled.buffered.roots_length
    have hle := h.pooled.buffered.used_le
    have hsize := h.pooled.size_le
    have hcur : f.decPicture.toList.length ≤ 1 := by cases f.decPicture <;> simp
    rw [List.length_append, List.length_append]
    simp only [DPB_SIZE_MAX, MAX_PIC_BUF_NUM] at *
    omega

theorem swap_take (h : f.Gapped p) {qs : List Nat} (hq : f.Fresh qs) (p' : Option Nat) :
    (f.take qs).swap p' = (f.swap p').take qs := by
  have hused : (fun q => if f.decPicture = some q then false
      else if q ∈ qs then true else f.picUsed q) =
      fun q => if q ∈ qs then true else if f.decPicture = some q then false else f.picUsed q := by
    funext q
    by_cases hc : f.decPicture = some q
    · have hnot : q ∉ qs := by
        intro hm
        have hun := hq.unused q hm
        rw [h.current q hc] at hun
        exact absurd hun (by decide)
      rw [if_pos hc, if_neg hnot, if_pos hc]
    · rw [if_neg hc, if_neg hc]
  exact congrArg (fun used => { f with picUsed := used, decPicture := p' }) hused

theorem take {q : Nat} (h : f.Gapped none) (hq : f.Fresh [q]) : (f.take [q]).Gapped (some q) := by
  refine ⟨?_, fun c hc => ?_⟩
  · have htake := h.swap_take hq (some q)
    rw [htake]
    exact h.pooled.decode (hq.swap none)
  · show (if c ∈ [q] then true else f.picUsed c) = true
    rw [h.current c hc, ite_self]

theorem buffered (h : f.Gapped p) : f.Buffered :=
  ⟨h.pooled.buffered.fs_perm, h.pooled.buffered.used_le, h.pooled.buffered.used_iff,
    h.pooled.buffered.last_mem, h.pooled.buffered.shape_ok⟩

theorem loose {q : Nat} (h : f.Gapped (some q)) (i : Nat) : q ∉ (f.shape i).held :=
  h.pooled.current_loose i

theorem inUse {q : Nat} (h : f.Gapped (some q)) : f.picUsed q = true := by
  have hroot : q ∈ (f.swap (some q)).roots := by
    unfold roots
    simp [swap]
  have hused : (if f.decPicture = some q then false else f.picUsed q) = true :=
    (h.pooled.owned.used_iff_root q).mpr hroot
  split at hused
  · exact absurd hused (by decide)
  · exact hused

theorem forget (h : f.Gapped p) : { f with lastPicture := none }.Gapped p :=
  ⟨h.pooled.forget, h.current⟩

/-- The current picture lies in no frame store. -/
theorem current_held (h : f.Gapped p) {c i : Nat} (hc : f.decPicture = some c)
    (hi : i ∈ f.used) : c ∉ (f.shape i).held := by
  intro hheld
  have hroot : c ∈ (f.swap p).roots :=
    List.mem_append_right _ (List.mem_flatMap.mpr ⟨i, hi, hheld⟩)
  have hused : (if f.decPicture = some c then false else f.picUsed c) = true :=
    (h.pooled.owned.used_iff_root c).mpr hroot
  rw [if_pos hc] at hused
  exact absurd hused (by decide)

theorem remove (h : f.Gapped p) {pos i : Nat} (hpos : f.used[pos]? = some i) :
    (f.remove pos i).Gapped p := by
  have hswap : (f.remove pos i).swap p = (f.swap p).remove pos i := by
    have hused : (fun q => if f.decPicture = some q then false
        else if q ∈ (f.shape i).held then false else f.picUsed q) =
        fun q => if q ∈ (f.shape i).held then false
          else if f.decPicture = some q then false else f.picUsed q := by
      funext q
      by_cases hc : f.decPicture = some q
      · rw [if_pos hc, if_pos hc, ite_self]
      · rw [if_neg hc, if_neg hc]
    exact congrArg (fun used => { (f.swap p).remove pos i with picUsed := used }) hused
  refine ⟨?_, fun c hc => ?_⟩
  · rw [hswap]
    exact h.pooled.remove hpos
  · show (if c ∈ (f.shape i).held then false else f.picUsed c) = true
    rw [if_neg (h.current_held hc (List.mem_of_getElem? hpos)), h.current c hc]

/-- The picture in hand goes into the first store that is not in use. -/
theorem append {q i : Nat} {new : List Nat} {x : Shape} {last : Option Nat}
    (h : f.Gapped (some q)) (hi : f.fs[f.usedSize]? = some i) (hn : f.Fresh new) (hx : x.Ok)
    (hne : x.isUsed ≠ .empty) (hheld : x.held.Perm (new ++ [q]))
    (hlast : ∀ j, last = some j → j = i) :
    { (f.take new).hold i x with usedSize := f.usedSize + 1, lastPicture := last }.Gapped none := by
  refine ⟨?_, fun c hc => ?_⟩
  · have hpool := h.pooled.append hi (hn.swap (some q)) hx hne hheld hlast
    rw [← h.swap_take hn (some q)] at hpool
    exact hpool
  · show (if c ∈ new then true else f.picUsed c) = true
    rw [h.current c hc, ite_self]

end Gapped

end Frames

namespace Dpb

open MediaModules.H264Dpb

variable {s t : Dpb} {p : Nat} {stores : List Nat} {q : StorablePicture}

/-! ## A picture in hand -/

/-- The picture is held outside the frame stores; those in use are among the ones given. -/
structure InHand (s : Dpb) (p : Nat) (stores : List Nat) (q : StorablePicture) : Prop where
  gapped : s.frames.Gapped (some p)
  used : s.used.Sublist stores
  pic : s.pics p = q

namespace InHand

theorem loose (h : s.InHand p stores q) : s.Loose p := h.gapped.loose

/-- What touches neither the pictures nor the frame stores in use. -/
theorem of_frames (h : s.InHand p stores q) (hf : t.frames = s.frames) (hp : t.pics p = s.pics p) :
    t.InHand p stores q := by
  have hused : t.frames.used = s.frames.used := by rw [hf]
  refine ⟨hf ▸ h.gapped, ?_, hp.trans h.pic⟩
  show t.frames.used.Sublist stores
  rw [hused]
  exact h.used

theorem unmarks (h : s.InHand p stores q) (hm : s.Unmarks t) (hun : t.unmarked = s.unmarked) :
    t.InHand p stores q :=
  h.of_frames (frames_of_unmarked hun) (hm.loose p h.loose)

theorem undisplayed (h : s.InHand p stores q) (hd : t.undisplayed = s.undisplayed) :
    t.InHand p stores q :=
  h.of_frames (frames_of_undisplayed hd)
    (congrFun (show t.undisplayed.pics = s.undisplayed.pics by rw [hd]) p)

/-- Every move that does not concern the picture leaves it in hand. -/
theorem move (h : s.InHand p stores q) (hm : Move none s t) : t.InHand p stores q := by
  cases hm with
  | steer ht =>
    have hframes : t.frames = s.frames :=
      show t.unsteered.frames = s.unsteered.frames from congrArg frames ht
    exact h.of_frames hframes (congrFun (show t.unsteered.pics = s.unsteered.pics by rw [ht]) p)
  | unmark i => exact h.unmarks (unmarks_unmarkForReference s i) (unmarked_unmarkForReference s i)
  | unmarkLong i =>
    exact h.unmarks (unmarks_unmarkForLongTermReference s i)
      (unmarked_unmarkForLongTermReference s i)
  | command p m hd => exact absurd hd nofun
  | refList => exact ⟨h.gapped, h.used, h.pic⟩
  | ltrefList => exact ⟨h.gapped, h.used, h.pic⟩
  | current p f hd hf => exact absurd hd nofun
  | forget => exact ⟨h.gapped.forget, h.used, h.pic⟩
  | remove pos i hpos =>
    have hb := h.gapped.buffered
    refine ⟨frames_remove hb hpos ▸ h.gapped.remove hpos, ?_,
      (removeFrame_pic hb hpos (h.loose i)).trans h.pic⟩
    rw [used_remove hb hpos]
    exact (List.eraseIdx_sublist _ _).trans h.used
  | output flushFlag => exact h.undisplayed (undisplayed_outputFrames s flushFlag)
  | flag index => exact h.undisplayed (undisplayed_setFrameOutputFlag s index)
  | lone p => exact h.undisplayed (undisplayed_showLoneField s p)

theorem moves (h : s.InHand p stores q) (hm : Moves none s t) : t.InHand p stores q :=
  hm.keep (P := fun u => u.InHand p stores q) (fun _ _ hm h => h.move hm) h

/-- A write to the picture. -/
theorem modify (h : s.InHand p stores q) {f : StorablePicture → StorablePicture}
    (hf : ∀ q, (f q).isUsed = q.isUsed) : (s.modifyPic (some p) f).InHand p stores (f q) := by
  refine ⟨?_, h.used, ?_⟩
  · rw [frames_modifyPic s hf]
    exact h.gapped
  · rw [modifyPic_pics, if_pos rfl, h.pic]

end InHand

/-! ## Up to the insertion -/

/-- The marks of a gap's picture when it is inserted. -/
def gapMarks (q : StorablePicture) : StorablePicture :=
  if q.idrFlag && q.longTermReferenceFlag then { q with isLongTerm := true, longTermFrameIdx := 0 }
  else { q with isLongTerm := false }

/-- Beside its long-term mark the picture is as before. -/
theorem gapMarks_keeps (q : StorablePicture) : (gapMarks q).idrFlag = q.idrFlag ∧
    (gapMarks q).picStructure = q.picStructure ∧
      (gapMarks q).usedForReference = q.usedForReference := by
  unfold gapMarks
  split <;> exact ⟨rfl, rfl, rfl⟩

namespace InHand

theorem markIdr (h : s.InHand p stores q) (hidr : q.idrFlag = true) :
    (s.markIdrPicture p).InHand p stores (gapMarks q) := by
  have hflag : (s.pics p).longTermReferenceFlag = q.longTermReferenceFlag := by rw [h.pic]
  have hmax (n : Int) : ({ s with maxLongTermPicIdx := n } : Dpb).InHand p stores q :=
    ⟨h.gapped, h.used, h.pic⟩
  have hmarks : gapMarks q = if q.longTermReferenceFlag then
        { q with isLongTerm := true, longTermFrameIdx := 0 }
      else { q with isLongTerm := false } :=
    if_congr (by rw [hidr, Bool.true_and]) rfl rfl
  unfold markIdrPicture
  rw [hmarks, hflag]
  split
  · exact (hmax 0).modify (f := fun q => { q with isLongTerm := true, longTermFrameIdx := 0 })
      fun _ => rfl
  · exact (hmax (-1)).modify (f := fun q => { q with isLongTerm := false }) fun _ => rfl

theorem storeMarking (h : s.InHand p stores q) (ha : q.adaptiveRefPicBufferingFlag = false) :
    (s.storeMarking p).InHand p stores (if q.idrFlag then gapMarks q else q) := by
  have hnote : (s.notePicture p).InHand p stores q := h.move (.steer rfl)
  have hskip (u : Dpb) : Moves none u u.skipFirstOutput := by
    unfold skipFirstOutput
    exact moves_ite (.single (.steer rfl)) .refl
  have hidr : (s.pics p).idrFlag = q.idrFlag := by rw [h.pic]
  have hadaptive : (s.pics p).adaptiveRefPicBufferingFlag = false := by rw [h.pic, ha]
  unfold Dpb.storeMarking
  show InHand (if ((s.notePicture p).pics p).idrFlag = true then _ else _) p stores _
  have hsame : (s.notePicture p).pics p = s.pics p := rfl
  rw [hsame, hidr, hadaptive, Bool.and_false, if_neg Bool.false_ne_true]
  split
  · next htrue =>
    exact ((hnote.moves (moves_beforeIdr none _ p)).markIdr htrue).moves (hskip _)
  · exact hnote

/-- The window slides over a reference picture, which becomes a short-term one. -/
theorem slideWindow (h : s.InHand p stores q) : (s.slideWindow p).InHand p stores
    (if !q.idrFlag && q.usedForReference && !q.adaptiveRefPicBufferingFlag then
      { q with isLongTerm := false } else q) := by
  unfold Dpb.slideWindow
  rw [h.pic]
  split
  · rw [slidingWindow_eq]
    apply InHand.modify (f := fun q => { q with isLongTerm := false })
    · cases s.slidOut with
      | none => exact h
      | some i => exact (h.move (.unmark s i)).move (.refList _)
    · exact fun _ => rfl
  · exact h

/-- The marks of a reference picture, before room is made for it. -/
theorem marked (h : s.InHand p stores q) (hu : q.usedForReference = true)
    (ha : q.adaptiveRefPicBufferingFlag = false) :
    ((s.storeMarking p).slideWindow p).InHand p stores (gapMarks q) := by
  have hstore := h.storeMarking ha
  by_cases hidr : q.idrFlag = true
  · rw [if_pos hidr] at hstore
    have hslide := hstore.slideWindow
    rw [if_neg (by rw [(gapMarks_keeps q).1, hidr]; exact Bool.false_ne_true)] at hslide
    exact hslide
  · rw [if_neg hidr] at hstore
    have hslide := hstore.slideWindow
    rw [Bool.not_eq_true] at hidr
    rw [if_pos (by rw [hidr, hu, ha]; rfl)] at hslide
    have hmarks : gapMarks q = { q with isLongTerm := false } :=
      if_neg (by rw [hidr]; exact Bool.false_ne_true)
    exact hmarks ▸ hslide

theorem beforeInsert (h : s.InHand p stores q) (hu : q.usedForReference = true)
    (ha : q.adaptiveRefPicBufferingFlag = false) :
    (((s.storeMarking p).makeRoom p).dropDuplicates p).2.InHand p stores (gapMarks q) := by
  have hshow := ((h.marked hu ha).moves (moves_removeAllUnused none _)).move (.lone _ p)
  exact (hshow.moves (moves_outputAll none _ false)).moves (moves_dropDuplicates none _ p)

end InHand

/-! ## What the insertion keeps -/

/-- What a frame store shows of a whole reference frame. -/
def storeKey (fs : FrameStore) : FieldBits × FieldBits × Option Nat × Int :=
  (fs.isUsed, fs.isReference, fs.frame, fs.frameNum)

/-- What makes a picture the one of a gap. -/
def gapKey (q : StorablePicture) :
    Bool × PictureStructure × Bool × Int × Int × Bool × Bool :=
  (q.isUsed, q.picStructure, q.nonExisting, q.frameNum, q.picNum, q.usedForReference, q.isLongTerm)

/-- A picture in use is not handed out, and stays as it is. -/
theorem getNewPic_inUse (h : (s.pics p).isUsed = true) (parity : PictureStructure) :
    (s.getNewPic parity).2.pics p = s.pics p ∧ (s.getNewPic parity).1 ≠ some p := by
  unfold getNewPic
  cases hfree : s.freePic with
  | none => exact ⟨rfl, nofun⟩
  | some r =>
    have hr : (s.pics r).isUsed = false := by simpa using List.find?_some hfree
    have hne : r ≠ p := fun hrp => by
      rw [hrp, h] at hr
      exact absurd hr (by decide)
    exact ⟨if_neg hne.symm, fun hrp => hne (Option.some.inj hrp)⟩

theorem getNewPic_stores (s : Dpb) (parity : PictureStructure) :
    (s.getNewPic parity).2.stores = s.stores := by
  unfold getNewPic
  split <;> rfl

/-- The store holds the frame it held, and the picture is as it was. -/
structure SameFrame (s t : Dpb) (i p : Nat) : Prop where
  store : storeKey (t.stores i) = storeKey (s.stores i)
  pic : gapKey (t.pics p) = gapKey (s.pics p)

namespace SameFrame

variable {i : Nat} {u : Dpb}

theorem trans (h : s.SameFrame t i p) (h' : t.SameFrame u i p) : s.SameFrame u i p :=
  ⟨h'.store.trans h.store, h'.pic.trans h.pic⟩

theorem isUsed (h : s.SameFrame t i p) : (t.pics p).isUsed = (s.pics p).isUsed :=
  congrArg Prod.fst h.pic

theorem picStructure (h : s.SameFrame t i p) :
    (t.pics p).picStructure = (s.pics p).picStructure :=
  congrArg (fun k => k.2.1) h.pic

theorem modifyStore (s : Dpb) {f : FrameStore → FrameStore}
    (hf : ∀ fs, storeKey (f fs) = storeKey fs) (i p : Nat) :
    s.SameFrame (s.modifyStore i f) i p :=
  ⟨modifyStore_read s storeKey hf i i, rfl⟩

theorem modifyPic (s : Dpb) {f : StorablePicture → StorablePicture}
    (hf : ∀ q, gapKey (f q) = gapKey q) (r : Option Nat) (i p : Nat) :
    s.SameFrame (s.modifyPic r f) i p :=
  ⟨congrArg (fun stores => storeKey (stores i)) (modifyPic_stores s r f),
    modifyPic_read s gapKey hf r p⟩

theorem of_undisplayed (h : t.undisplayed = s.undisplayed) (i p : Nat) : s.SameFrame t i p := by
  constructor
  · show storeKey (t.undisplayed.stores i) = storeKey (s.undisplayed.stores i)
    rw [h]
  · show gapKey (t.undisplayed.pics p) = gapKey (s.undisplayed.pics p)
    rw [h]

/-- A write to another picture. -/
theorem modifyOther (s : Dpb) {r : Option Nat} (hr : r ≠ some p)
    (f : StorablePicture → StorablePicture) (i : Nat) : s.SameFrame (s.modifyPic r f) i p := by
  refine ⟨congrArg (fun stores => storeKey (stores i)) (modifyPic_stores s r f), ?_⟩
  cases r with
  | none => rfl
  | some r => exact congrArg gapKey (if_neg fun hpr => hr (congrArg some hpr.symm))

/-- A picture for a field view is handed out and noted in the store. -/
theorem getView (h : (s.pics p).isUsed = true) (parity : PictureStructure)
    {f : Option Nat → FrameStore → FrameStore} (hf : ∀ r fs, storeKey (f r fs) = storeKey fs)
    (i : Nat) : s.SameFrame ((s.getNewPic parity).2.modifyStore i (f (s.getNewPic parity).1)) i p ∧
      (s.getNewPic parity).1 ≠ some p := by
  obtain ⟨hpic, hne⟩ := getNewPic_inUse h parity
  have hnew : s.SameFrame (s.getNewPic parity).2 i p :=
    ⟨congrArg (fun stores => storeKey (stores i)) (getNewPic_stores s parity), congrArg gapKey hpic⟩
  exact ⟨hnew.trans (modifyStore _ (hf _) i p), hne⟩

theorem shareFrame (s : Dpb) {top btm : Option Nat} (htop : top ≠ some p) (hbtm : btm ≠ some p)
    (i : Nat) : s.SameFrame (s.shareFrame i (some p) top btm) i p := by
  have hfields := fun f g => (modifyOther s htop f i).trans (modifyOther _ hbtm g i)
  unfold Dpb.shareFrame
  refine ((hfields _ _).trans (modifyPic _ ?_ (some p) i p)).trans (modifyStore _ ?_ i p)
  all_goals exact fun _ => rfl

/-- The field views of a frame do not change it. -/
theorem dpbSplitField (hp : (s.pics p).isUsed = true) (hf : (s.stores i).frame = some p) :
    s.SameFrame (s.dpbSplitField i) i p := by
  have hpoc := modifyStore s (f := fun fs => { fs with poc := (s.pic (some p)).poc })
    (fun _ => rfl) i p
  unfold Dpb.dpbSplitField
  dsimp only
  rw [hf]
  split
  · refine (hpoc.trans (modifyStore _ ?_ i p)).trans (modifyPic _ ?_ _ i p)
    all_goals exact fun _ => rfl
  · obtain ⟨htop, hne⟩ := getView (f := fun r fs => { fs with topField := r })
      (hpoc.isUsed.trans hp) .topField (fun _ _ => rfl) i
    have htop := hpoc.trans htop
    obtain ⟨hbtm, hne'⟩ := getView (f := fun r fs => { fs with bottomField := r })
      (htop.isUsed.trans hp) .bottomField (fun _ _ => rfl) i
    have hbtm := htop.trans hbtm
    split
    · exact hbtm
    · exact hbtm.trans (shareFrame _ hne hne' i)

end SameFrame

/-- A whole reference frame is put into a store. -/
theorem insertPicture_frame (hp : (s.pics p).isUsed = true)
    (hs : (s.pics p).picStructure = .frame) (hu : (s.pics p).usedForReference = true) (i : Nat)
    (dataFlag : UInt8) :
    storeKey ((s.insertPictureInDpb i p dataFlag).stores i) =
        (.both, .both, some p, (s.pics p).picNum) ∧
      gapKey ((s.insertPictureInDpb i p dataFlag).pics p) = gapKey (s.pics p) := by
  have hcount : gapKey ((s.countInserted i p dataFlag).pics p) = gapKey (s.pics p) :=
    modifyPic_read { s with dpbFrameCount := s.dpbFrameCount + 1 } gapKey
      (f := fun q => { q with dataFlag := dataFlag }) (fun _ => rfl) (some p) p
  have hkey := hcount
  simp only [gapKey, Prod.mk.injEq] at hkey
  obtain ⟨hused, hstructure, -, -, hnum, href, -⟩ := hkey
  have hput : storeKey (((s.countInserted i p dataFlag).putPicture i p).stores i) =
      (.both, .both, some p, ((s.countInserted i p dataFlag).stores i).frameNum) := by
    unfold putPicture
    rw [modifyStore_self, hstructure, hs]
    unfold takeMarks
    rw [href, hu, if_pos rfl, hstructure, hs]
    rfl
  have hviews : ((s.countInserted i p dataFlag).putPicture i p).generateViews i p =
      ((s.countInserted i p dataFlag).putPicture i p).dpbSplitField i := if_pos (hstructure.trans hs)
  have hsplit : ((s.countInserted i p dataFlag).putPicture i p).SameFrame
      (((s.countInserted i p dataFlag).putPicture i p).dpbSplitField i) i p :=
    .dpbSplitField (hused.trans hp) (congrArg (fun k => k.2.2.1) hput)
  have hkept := hsplit.store.trans hput
  have hpic := hsplit.pic.trans hcount
  simp only [storeKey, Prod.mk.injEq] at hkept
  unfold insertPictureInDpb
  dsimp only
  rw [hviews, modifyStore_self, modifyStore_pics]
  refine ⟨?_, hpic⟩
  simp only [gapKey, Prod.mk.injEq] at hpic
  simp only [storeKey, hkept.1, hkept.2.1, hkept.2.2.1, hpic.2.2.2.2.1]

/-- The frame view of a pair has a picture of its own. -/
theorem dpbCombineField_structure (hp : (s.pics p).isUsed = true) (i : Nat) :
    ((s.dpbCombineField i).pics p).picStructure = (s.pics p).picStructure := by
  have hjoin (u : Dpb) (frame top btm : Option Nat) :
      ((u.joinFields i frame top btm).pics p).picStructure = (u.pics p).picStructure := by
    unfold joinFields
    dsimp only
    rw [modifyStore_pics, modifyPic_read _ StorablePicture.picStructure,
      modifyPic_read _ StorablePicture.picStructure, modifyPic_read _ StorablePicture.picStructure]
    all_goals exact fun _ => rfl
  have hframe (f : FrameStore → FrameStore) :
      (((s.getNewPic .frame).2.modifyStore i f).pics p).picStructure = (s.pics p).picStructure :=
    congrArg StorablePicture.picStructure (getNewPic_inUse hp .frame).1
  unfold dpbCombineField
  dsimp only
  split
  · split
    · exact hframe _
    · exact (hjoin _ _ _ _).trans (hframe _)
  · exact hjoin _ _ _ _

/-- A field is put into a store. -/
theorem insertPicture_field (hp : (s.pics p).isUsed = true)
    (hs : (s.pics p).picStructure ≠ .frame) (i : Nat) (dataFlag : UInt8) :
    ((s.insertPictureInDpb i p dataFlag).pics p).picStructure = (s.pics p).picStructure := by
  have hcount := modifyPic_read { s with dpbFrameCount := s.dpbFrameCount + 1 }
    (fun q => (q.isUsed, q.picStructure)) (f := fun q => { q with dataFlag := dataFlag })
    (fun _ => rfl) (some p) p
  rw [Prod.mk.injEq] at hcount
  have hput : (((s.countInserted i p dataFlag).putPicture i p).pics p).isUsed = (s.pics p).isUsed ∧
      (((s.countInserted i p dataFlag).putPicture i p).pics p).picStructure =
        (s.pics p).picStructure := hcount
  rw [← hput.2] at hs ⊢
  unfold insertPictureInDpb generateViews
  dsimp only
  rw [if_neg hs, modifyStore_pics]
  split
  · exact dpbCombineField_structure (hput.1.trans hp) i
  · rfl

/-! ## A turn -/

/-- The store of a whole frame comes after those that were kept. -/
structure Appended (t : Dpb) (kept : List Nat) (i p : Nat) (q : StorablePicture) : Prop where
  gapped : t.frames.Gapped none
  used : t.used = kept ++ [i]
  store : storeKey (t.stores i) = (.both, .both, some p, q.picNum)
  pic : gapKey (t.pics p) = gapKey q

/-- What is output after the insertion stays in its store. -/
theorem appendStore_same (s : Dpb) (i p : Nat) (dataFlag : UInt8) :
    (s.insertPictureInDpb i p dataFlag).SameFrame (s.appendStore i p dataFlag) i p := by
  have hout := SameFrame.of_undisplayed (undisplayed_outputAfterStore
    ((s.insertPictureInDpb i p dataFlag).countStore i p).updateRefList.updateLtrefList) i p
  exact ⟨hout.store, hout.pic⟩

theorem InHand.appendStore {i : Nat} (h : s.InHand p stores q) (hs : q.picStructure = .frame)
    (hu : q.usedForReference = true) (hi : s.fs[s.usedSize]? = some i) (dataFlag : UInt8) :
    (s.appendStore i p dataFlag).Appended s.used i p q := by
  obtain ⟨new, x, last, hn, hok, hne, hheld, hlast, hg⟩ := frames_appendStore (p := p) dataFlag
    h.gapped.room (h.gapped.buffered.shape_next hi)
  have hpic := h.pic
  obtain ⟨hstore, hkey⟩ := insertPicture_frame (s := s) h.gapped.inUse (by rw [hpic, hs])
    (by rw [hpic, hu]) i dataFlag
  have hsame := appendStore_same s i p dataFlag
  rw [hpic] at hstore hkey
  refine ⟨?_, ?_, hsame.store.trans hstore, hsame.pic.trans hkey⟩
  · rw [hg]
    exact h.gapped.append hi hn hok hne hheld hlast
  · show (s.appendStore i p dataFlag).frames.used = _
    rw [hg]
    exact (h.gapped.buffered.used_next hi).1

theorem pairedStore_frame (hs : (s.pics p).picStructure = .frame) : s.pairedStore p = none := by
  apply Option.filter_eq_none_iff.mpr
  intro i _
  unfold isSecondField
  rw [hs]
  simp

/-- A whole reference frame in hand that is neither refused nor without a place is stored. -/
theorem InHand.storeFrame (h : s.InHand p stores q) (hs : q.picStructure = .frame)
    (hu : q.usedForReference = true) (ha : q.adaptiveRefPicBufferingFlag = false)
    {dataFlag : UInt8} (hfull : (s.storePictureInDpb p dataFlag).1 ≠ -1)
    (hdup : (s.storePictureInDpb p dataFlag).1 ≠ -2) : ∃ i kept, kept.Sublist stores ∧
      (s.storePictureInDpb p dataFlag).2.Appended kept i p (gapMarks q) := by
  obtain ⟨-, hstructure, href⟩ := gapMarks_keeps q
  have hpair : (s.storeMarking p).pairedStore p = none := by
    apply pairedStore_frame
    rw [(h.storeMarking ha).pic]
    split
    · exact hstructure.trans hs
    · exact hs
  have hfirst : s.storePictureInDpb p dataFlag = (s.storeMarking p).storeFirstField p dataFlag := by
    unfold storePictureInDpb
    dsimp only
    rw [hpair]
  have hroom := h.beforeInsert hu ha
  rw [hfirst] at hfull hdup ⊢
  unfold storeFirstField at hfull hdup ⊢
  generalize ((s.storeMarking p).makeRoom p).dropDuplicates p = r at *
  dsimp only at hfull hdup ⊢
  by_cases hr : r.1 = true
  · rw [if_pos hr] at hdup
    exact absurd rfl hdup
  · rw [if_neg hr] at hfull ⊢
    cases hi : r.2.fs[r.2.usedSize]? with
    | none =>
      rw [hi] at hfull
      exact absurd rfl hfull
    | some i =>
      exact ⟨i, r.2.used, hroom.used, hroom.appendStore (hstructure.trans hs) (href.trans hu) hi
        dataFlag⟩

theorem InHand.storeField (h : s.InHand p stores q) (hs : q.picStructure ≠ .frame)
    (hu : q.usedForReference = true) (ha : q.adaptiveRefPicBufferingFlag = false)
    (dataFlag : UInt8) :
    ((s.storePictureInDpb p dataFlag).2.pics p).picStructure = q.picStructure := by
  have hmarked := (gapMarks_keeps q).2.1
  have hinsert {u : Dpb} {q' : StorablePicture} (hu : u.InHand p stores q')
      (hq : q'.picStructure = q.picStructure) (i : Nat) :
      ((u.insertPictureInDpb i p dataFlag).pics p).picStructure = q.picStructure := by
    rw [insertPicture_field hu.gapped.inUse (by rw [hu.pic, hq]; exact hs), hu.pic, hq]
  have hroom := h.beforeInsert hu ha
  unfold storePictureInDpb storeFirstField
  dsimp only
  split
  · next i hi =>
    have hstore := h.storeMarking ha
    have hpair := SameFrame.of_undisplayed (undisplayed_outputAfterPair
      { ((s.storeMarking p).insertPictureInDpb i p dataFlag).updateRefList.updateLtrefList with
        lastPicture := none }) i p
    apply hpair.picStructure.trans (hinsert hstore _ i)
    split
    · exact hmarked
    · rfl
  · split
    · exact (congrArg StorablePicture.picStructure hroom.pic).trans hmarked
    · split
      · exact (congrArg StorablePicture.picStructure hroom.pic).trans hmarked
      · next i hi =>
        exact (appendStore_same _ i p dataFlag).picStructure.trans (hinsert hroom hmarked i)

/-! ## The picture of a turn -/

theorem numberSlice_same (s : Dpb) (n : Int) :
    (s.numberSlice n).frames = s.frames ∧ (s.numberSlice n).pics = s.pics := by
  unfold numberSlice
  dsimp only
  split
  · have hkey := decodePoc_videoKey s.mSPS s.mVideo { s.mSlice with frameNum := n }
    simp only [videoKey, Prod.mk.injEq] at hkey
    refine ⟨?_, rfl⟩
    show { s.frames with
      decPicture := (decodePoc s.mSPS s.mVideo { s.mSlice with frameNum := n }).1.decPicture
      noReferencePicture :=
        (decodePoc s.mSPS s.mVideo { s.mSlice with frameNum := n }).1.noReferencePicture : Frames } = _
    rw [hkey.2.1, hkey.2.2]
    rfl
  · exact ⟨rfl, rfl⟩

/-- What a turn looks at in the picture it numbers. -/
structure Numbered (n : Int) (q q' : StorablePicture) : Prop where
  key : gapKey q' = (q.isUsed, q.picStructure, true, n, n, true, q.isLongTerm)
  adaptive : q'.adaptiveRefPicBufferingFlag = false
  idr : q'.idrFlag = q.idrFlag
  longTerm : q'.longTermReferenceFlag = q.longTermReferenceFlag

/-- The picture in hand gets the numbers of the gap. -/
theorem InHand.number (h : s.InHand p stores q) (n : Int) :
    ∃ q', Numbered n q q' ∧ (s.numberGapPicture p n).InHand p stores q' := by
  have hgap := h.modify (f := gapPicture n) fun _ => rfl
  obtain ⟨hframes, hpics⟩ := numberSlice_same (s.modifyPic (some p) (gapPicture n)) n
  have hslice := hgap.of_frames hframes (congrFun hpics p)
  unfold numberGapPicture
  refine ⟨_, ?_, hslice.modify ?_⟩
  · exact ⟨rfl, rfl, rfl, rfl⟩
  · exact fun _ => rfl

/-- The picture handed out next was an IDR picture for long-term reference: `get_new_pic` leaves
these flags as they are. -/
def recyclesLongIdr (s : Dpb) : Bool :=
  s.freePic.any fun p => (s.pics p).idrFlag && (s.pics p).longTermReferenceFlag

/-- A turn has taken its picture and numbered it. -/
structure Took (s u : Dpb) (n : Int) (p : Nat) (q : StorablePicture) : Prop where
  taken : s.freePic = some p
  inHand : u.InHand p s.used q
  key : gapKey q = (true, s.mSlice.picStructure, true, n, n, true, false)
  adaptive : q.adaptiveRefPicBufferingFlag = false
  longIdr : (q.idrFlag && q.longTermReferenceFlag) = s.recyclesLongIdr

theorem took_numberGapPicture (h : s.frames.Gapped none) (n : Int) : ∃ p q,
    (s.getNewPic s.mSlice.picStructure).1 = some p ∧
      s.Took ((s.getNewPic s.mSlice.picStructure).2.numberGapPicture p n) n p q := by
  obtain ⟨p, hp, hn⟩ := h.room.one
  have hfree : s.freePic = some p := hp
  obtain ⟨hnew, hframes, -⟩ := getNewPic_some hp s.mSlice.picStructure
  have hpic : (s.getNewPic s.mSlice.picStructure).2.pics p =
      renewPic s.mSlice.picStructure s.mSPS.frameMbsOnlyFlag (s.pics p) := by
    unfold getNewPic
    rw [hfree]
    exact if_pos rfl
  have htake : (s.getNewPic s.mSlice.picStructure).2.InHand p s.used
      (renewPic s.mSlice.picStructure s.mSPS.frameMbsOnlyFlag (s.pics p)) := by
    refine ⟨hframes ▸ h.take hn, ?_, hpic⟩
    show (s.getNewPic s.mSlice.picStructure).2.frames.used.Sublist s.used
    rw [hframes]
    exact List.Sublist.refl _
  obtain ⟨q, hq, hnumber⟩ := htake.number n
  refine ⟨p, q, hnew, hfree, hnumber, hq.key, hq.adaptive, ?_⟩
  unfold recyclesLongIdr
  rw [hfree, hq.idr, hq.longTerm]
  rfl

theorem storeGapPicture_stored {n : Int} (h : (s.storeGapPicture p n).1 = .stored) :
    ((s.numberGapPicture p n).storePictureInDpb p 0).1 ≠ -1 ∧
      ((s.numberGapPicture p n).storePictureInDpb p 0).1 ≠ -2 ∧
      (s.storeGapPicture p n).2 = ((s.numberGapPicture p n).storePictureInDpb p 0).2 := by
  unfold storeGapPicture at h ⊢
  dsimp only at h ⊢
  split at h
  · exact absurd h nofun
  · next hfull =>
    split at h
    · exact absurd h nofun
    · next hdup => exact ⟨hfull, hdup, by rw [if_neg hfull, if_neg hdup]⟩

/-- A turn for a frame leaves a whole frame behind the stores it kept. -/
theorem gapTurn_frame {n : Int} (h : s.frames.Gapped none)
    (hs : s.mSlice.picStructure = .frame) (hr : (s.gapTurn n).1 = .stored) :
    ∃ i p kept q, s.freePic = some p ∧ kept.Sublist s.used ∧
      (s.gapTurn n).2.Appended kept i p q ∧
      gapKey q = (true, .frame, true, n, n, true, s.recyclesLongIdr) := by
  obtain ⟨p, q, hnew, htook⟩ := took_numberGapPicture h n
  have hkey := htook.key
  simp only [gapKey, Prod.mk.injEq] at hkey
  rw [gapTurn_some n hnew] at hr ⊢
  obtain ⟨hfull, hdup, hleft⟩ := storeGapPicture_stored hr
  obtain ⟨i, kept, hkept, happend⟩ := htook.inHand.storeFrame (hkey.2.1.trans hs)
    hkey.2.2.2.2.2.1 htook.adaptive hfull hdup
  refine ⟨i, p, kept, gapMarks q, htook.taken, hkept, hleft ▸ happend, ?_⟩
  rw [← htook.longIdr, ← hs]
  unfold gapMarks
  split
  · next hlong => simp only [gapKey, hkey, hlong]
  · next hlong => simp only [gapKey, hkey, Bool.not_eq_true _ |>.mp hlong]

theorem gapTurn_field {n : Int} (h : s.frames.Gapped none)
    (hs : s.mSlice.picStructure ≠ .frame) (hr : (s.gapTurn n).1 = .stored) :
    ∃ p, s.freePic = some p ∧ ((s.gapTurn n).2.pics p).picStructure ≠ .frame := by
  obtain ⟨p, q, hnew, htook⟩ := took_numberGapPicture h n
  have hkey := htook.key
  simp only [gapKey, Prod.mk.injEq] at hkey
  rw [← hkey.2.1] at hs
  rw [gapTurn_some n hnew] at hr ⊢
  refine ⟨p, htook.taken, ?_⟩
  rw [(storeGapPicture_stored hr).2.2, htook.inHand.storeField hs hkey.2.2.2.2.2.1 htook.adaptive]
  exact hs

end Dpb

end MediaModules.H264Dpb
