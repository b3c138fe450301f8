import MediaModules.H264Dpb.FramePool
import MediaModules.H264Dpb.Moves

/-!
# Every picture has one owner

The calls of the decoder on the pool of pictures: each of them does to the frames what the pool
allows, so the buffer stays in order and `get_new_pic` never comes back with nothing.
-/
namespace MediaModules.H264Dpb.Dpb

open MediaModules.H264Dpb

variable {s : Dpb} {d : Option Nat}

/-! ## Removing -/

theorem frames_freePicture (s : Dpb) (p : Option Nat) :
    (s.freePicture p).frames = s.frames.free p.toList := by
  cases p with
  | none =>
    show s.frames = { s.frames with picUsed := fun q => if q ∈ [] then false else s.frames.picUsed q }
    simp
  | some p =>
    have hused : (fun q => ((s.freePicture (some p)).pics q).isUsed) =
        fun q => if q ∈ [p] then false else (s.pics q).isUsed := by
      funext q
      show (if q = p then { s.pics p with isUsed := false } else s.pics q).isUsed = _
      simp only [List.mem_singleton]
      split <;> rfl
    exact congrArg (fun used => { s.frames with picUsed := used }) hused

theorem free_free (f : Frames) (a b : List Nat) : (f.free a).free b = f.free (a ++ b) := by
  have hused : (fun q => if q ∈ b then false else if q ∈ a then false else f.picUsed q) =
      fun q => if q ∈ a ++ b then false else f.picUsed q := by
    funext q
    by_cases ha : q ∈ a <;> by_cases hb : q ∈ b <;> simp [ha, hb]
  exact congrArg (fun used => { f with picUsed := used }) hused

theorem frames_modifyStore_hold (s : Dpb) (i : Nat) (f : FrameStore → FrameStore) {x : Shape}
    (h : (f (s.stores i)).shape = x) : (s.modifyStore i f).frames = s.frames.hold i x := by
  have hshape : (fun j => ((s.modifyStore i f).stores j).shape) =
      fun j => if j = i then x else (s.stores j).shape := by
    funext j
    rw [modifyStore_stores]
    split
    · exact h
    · rfl
  exact congrArg (fun shape => { s.frames with shape := shape }) hshape

/-- What `freeStore` leaves of a store of a sound shape. -/
theorem shape_emptied {fs : FrameStore} (h : fs.shape.Ok) :
    (⟨FieldBits.empty, if fs.isUsed = .both then none else fs.frame,
      if fs.isUsed.top then none else fs.topField,
      if fs.isUsed.bottom then none else fs.bottomField⟩ : Shape) = .empty := by
  have hcases : fs.isUsed = fs.shape.isUsed ∧ fs.frame = fs.shape.frame ∧
      fs.topField = fs.shape.topField ∧ fs.bottomField = fs.shape.bottomField := ⟨rfl, rfl, rfl, rfl⟩
  rw [hcases.1, hcases.2.1, hcases.2.2.1, hcases.2.2.2]
  rcases h with hx | ⟨p, hx⟩ | ⟨p, hx⟩ | ⟨p, hx⟩ | ⟨p, t, b, hx⟩ <;> rw [hx] <;> rfl

/-- The pictures `freeStore` frees are those a store of a sound shape holds. -/
theorem held_freed {fs : FrameStore} (h : fs.shape.Ok) :
    (if fs.isUsed = .both then fs.frame.toList else []) ++
      ((if fs.isUsed.top then fs.topField.toList else []) ++
        (if fs.isUsed.bottom then fs.bottomField.toList else [])) = fs.shape.held := by
  have hcases : fs.isUsed = fs.shape.isUsed ∧ fs.frame = fs.shape.frame ∧
      fs.topField = fs.shape.topField ∧ fs.bottomField = fs.shape.bottomField := ⟨rfl, rfl, rfl, rfl⟩
  rw [hcases.1, hcases.2.1, hcases.2.2.1, hcases.2.2.2]
  rcases h with hx | ⟨p, hx⟩ | ⟨p, hx⟩ | ⟨p, hx⟩ | ⟨p, t, b, hx⟩ <;> rw [hx] <;> rfl

theorem frames_freePicture_if (s : Dpb) (c : Prop) [Decidable c] (p : Option Nat) :
    (if c then s.freePicture p else s).frames =
      s.frames.free (if c then p.toList else []) := by
  split
  · exact frames_freePicture s p
  · exact frames_freePicture s none

theorem stores_freePicture_if (s : Dpb) (c : Prop) [Decidable c] (p : Option Nat) :
    (if c then s.freePicture p else s).stores = s.stores := by
  split
  · exact modifyPic_stores s p _
  · rfl

theorem frames_freeStore (s : Dpb) (i : Nat) (h : (s.stores i).shape.Ok) :
    (s.freeStore i).frames = (s.frames.free (s.stores i).shape.held).hold i .empty := by
  unfold freeStore
  dsimp only
  rw [frames_modifyStore_hold _ i _ (x := .empty), frames_freePicture_if, frames_freePicture_if,
    frames_freePicture_if, free_free, free_free, held_freed h]
  rw [stores_freePicture_if, stores_freePicture_if, stores_freePicture_if]
  exact shape_emptied h

/-- The frame store at a position below `used_size` is removed. -/
theorem frames_remove {pos i : Nat} (h : s.frames.Buffered) (hpos : s.used[pos]? = some i) :
    (s.removeFrameFromDpb pos).frames = s.frames.remove pos i := by
  have hfs := fs_of_used hpos
  have hstarved : (Event.noPicture ∈ Event.removed i :: (s.freeStore i).trace) =
      (Event.noPicture ∈ (s.freeStore i).trace) := by
    simp
  have hremove : (s.removeFrameFromDpb pos).frames =
      { (s.freeStore i).frames with
        fs := (s.freeStore i).frames.used.eraseIdx pos ++
          i :: (s.freeStore i).frames.fs.drop (s.freeStore i).frames.usedSize
        usedSize := (s.freeStore i).frames.usedSize - 1
        starved := Event.noPicture ∈ Event.removed i :: (s.freeStore i).trace } := by
    unfold removeFrameFromDpb
    rw [hfs]
    rfl
  rw [hremove, hstarved]
  show { (s.freeStore i).frames with
        fs := (s.freeStore i).frames.used.eraseIdx pos ++
          i :: (s.freeStore i).frames.fs.drop (s.freeStore i).frames.usedSize
        usedSize := (s.freeStore i).frames.usedSize - 1 : Frames } = _
  rw [frames_freeStore s i (h.shape_ok i)]
  rfl

theorem pooled_move {t : Dpb} (hm : Move d s t) (h : s.frames.Pooled d) : t.frames.Pooled d := by
  cases hm with
  | steer ht =>
    have hframes : t.frames = s.frames :=
      show t.unsteered.frames = s.unsteered.frames from congrArg frames ht
    rw [hframes]
    exact h
  | unmark i => exact frames_of_unmarked (unmarked_unmarkForReference s i) ▸ h
  | unmarkLong i => exact frames_of_unmarked (unmarked_unmarkForLongTermReference s i) ▸ h
  | command p m hd => exact frames_memoryManagementControl s p m ▸ h
  | refList => exact h
  | ltrefList => exact h
  | current p f hd hf => exact frames_modifyPic s hf (some p) ▸ h
  | forget => exact h.forget
  | remove pos i hpos => exact frames_remove h.buffered hpos ▸ h.remove hpos
  | output flushFlag => exact frames_of_undisplayed (undisplayed_outputFrames s flushFlag) ▸ h
  | flag index => exact frames_of_undisplayed (undisplayed_setFrameOutputFlag s index) ▸ h
  | lone p => exact frames_of_undisplayed (undisplayed_showLoneField s p) ▸ h

theorem pooled_moves {t : Dpb} (hm : Moves d s t) (h : s.frames.Pooled d) : t.frames.Pooled d :=
  hm.keep (fun _ _ => pooled_move) h

/-! ## New pictures -/

theorem getNewPic_some {q : Nat} (h : s.frames.freePic = some q) (t : PictureStructure) :
    (s.getNewPic t).1 = some q ∧ (s.getNewPic t).2.frames = s.frames.take [q] ∧
      (s.getNewPic t).2.stores = s.stores := by
  have hfree : s.freePic = some q := h
  unfold getNewPic
  rw [hfree]
  refine ⟨rfl, ?_, rfl⟩
  have hused : (fun r => (if r = q then renewPic t s.mSPS.frameMbsOnlyFlag (s.pics q)
        else s.pics r).isUsed) = fun r => if r ∈ [q] then true else (s.pics r).isUsed := by
    funext r
    simp only [List.mem_singleton]
    split <;> rfl
  exact congrArg (fun used => { s.frames with picUsed := used }) hused

/-! ## Inserting -/

/-- A picture was put into a frame store: what the store holds now are the picture, what it held
before and new pictures of the pool. -/
def Inserted (f g : Frames) (i p : Nat) : Prop :=
  ∃ new x, f.Fresh new ∧ x.Ok ∧ x.isUsed ≠ FieldBits.empty ∧
    x.held.Perm (new ++ p :: (f.shape i).held) ∧ g = (f.take new).hold i x

/-- A store takes a picture of the parity: it is empty, or has the other field alone. -/
def Fits (parity : PictureStructure) (x : Shape) : Prop :=
  x = .empty ∨ (parity = .topField ∧ ∃ b, x = ⟨.bottomOnly, none, none, some b⟩) ∨
    parity = .bottomField ∧ ∃ t, x = ⟨.topOnly, none, some t, none⟩

theorem frames_shareFrame (s : Dpb) (i : Nat) (frame top btm : Option Nat) :
    (s.shareFrame i frame top btm).frames = s.frames := by
  unfold shareFrame
  dsimp only
  rw [frames_modifyStore, frames_modifyPic, frames_modifyPic, frames_modifyPic]
  all_goals exact fun _ => rfl

theorem frames_joinFields (s : Dpb) (i : Nat) (frame top btm : Option Nat) :
    (s.joinFields i frame top btm).frames = s.frames := by
  unfold joinFields
  dsimp only
  rw [frames_modifyStore, frames_modifyPic, frames_modifyPic, frames_modifyPic]
  all_goals exact fun _ => rfl

theorem frames_countInserted (s : Dpb) (i p : Nat) (dataFlag : UInt8) :
    (s.countInserted i p dataFlag).frames = s.frames := by
  unfold countInserted
  dsimp only
  rw [frames_modifyStore, frames_modifyPic]
  · rfl
  all_goals exact fun _ => rfl

theorem takeMarks_shape (q : StorablePicture) (fs : FrameStore) :
    (takeMarks q fs).shape = fs.shape := by
  unfold takeMarks
  split <;> rfl

/-- The shape of a store with the picture in it. -/
def hungShape (parity : PictureStructure) (p : Nat) (x : Shape) : Shape :=
  match parity with
  | .frame => { x with frame := some p, isUsed := .both }
  | .topField => { x with topField := some p, isUsed := setBit .topField x.isUsed }
  | .bottomField => { x with bottomField := some p, isUsed := setBit .bottomField x.isUsed }

theorem frames_putPicture (s : Dpb) (i p : Nat) :
    (s.putPicture i p).frames =
      s.frames.hold i (hungShape (s.pics p).picStructure p (s.stores i).shape) := by
  unfold putPicture
  rw [frames_modifyStore_hold]
  rw [takeMarks_shape]
  unfold hang hungShape
  cases (s.pics p).picStructure <;> rfl

theorem modifyStore_self (s : Dpb) (i : Nat) (f : FrameStore → FrameStore) :
    (s.modifyStore i f).stores i = f (s.stores i) := if_pos rfl

/-- Splitting a frame into its fields, or leaving it whole. -/
theorem frames_split {i p : Nat} (hx : (s.stores i).shape = ⟨.both, some p, none, none⟩)
    (hroom : s.frames.Room) : ∃ new x, s.frames.Fresh new ∧ x.Ok ∧ x.isUsed = FieldBits.both ∧
      x.held.Perm (new ++ [p]) ∧ (s.dpbSplitField i).frames = (s.frames.take new).hold i x := by
  have hframe : (s.stores i).frame = some p := congrArg Shape.frame hx
  have hused : (s.stores i).isUsed = .both := congrArg Shape.isUsed hx
  unfold dpbSplitField
  dsimp only
  rw [hframe]
  generalize hs1 : (s.modifyStore i fun fs => { fs with poc := (s.pic (some p)).poc }) = s1
  have hf1 : s1.frames = s.frames := by
    rw [← hs1]
    apply frames_modifyStore
    exact fun _ => rfl
  have hx1 : (s1.stores i).shape = ⟨.both, some p, none, none⟩ := by
    rw [← hs1, modifyStore_self]
    exact hx
  split
  · -- a frame of a stream of frames is never split
    refine ⟨[], ⟨.both, some p, none, none⟩, ⟨List.nodup_nil, nofun, nofun⟩, by simp [Shape.Ok],
      rfl, List.Perm.refl _, ?_⟩
    rw [frames_modifyPic, Frames.take_nil, ← hf1]
    · apply frames_modifyStore_hold
      show (⟨(s1.stores i).shape.isUsed, (s1.stores i).shape.frame, none, none⟩ : Shape) = _
      rw [hx1]
    · exact fun _ => rfl
  · obtain ⟨t, ht, hnt⟩ := hroom.one
    obtain ⟨b, hb, hnb⟩ := hroom [t] (Nat.le_refl 1)
    obtain ⟨ht1, ht2, ht3⟩ := getNewPic_some (s := s1) (q := t) (hf1 ▸ ht) .topField
    rw [ht1]
    generalize hs2 : ((s1.getNewPic .topField).2.modifyStore i fun fs =>
      { fs with topField := some t }) = s2
    have hx2 : (s2.stores i).shape = ⟨.both, some p, some t, none⟩ := by
      rw [← hs2, modifyStore_self, ht3]
      show (⟨(s1.stores i).shape.isUsed, (s1.stores i).shape.frame, some t,
        (s1.stores i).shape.bottomField⟩ : Shape) = _
      rw [hx1]
    have hf2 : s2.frames = (s.frames.take [t]).hold i ⟨.both, some p, some t, none⟩ := by
      rw [← hf1, ← ht2, ← hs2]
      apply frames_modifyStore_hold
      rw [← hx2, ← hs2, modifyStore_self]
    obtain ⟨hb1, hb2, hb3⟩ := getNewPic_some (s := s2) (q := b) (hf2 ▸ hb) .bottomField
    rw [hb1]
    refine ⟨[t, b], ⟨.both, some p, some t, some b⟩, hnt.take hnb, by simp [Shape.Ok], rfl, ?_, ?_⟩
    · show [p, t, b].Perm [t, b, p]
      exact (List.perm_append_comm : ([p] ++ [t, b]).Perm ([t, b] ++ [p]))
    · rw [if_neg (by simp), frames_shareFrame,
        frames_modifyStore_hold _ i _ (x := ⟨.both, some p, some t, some b⟩), hb2, hf2]
      · show (((s.frames.take [t]).take [b]).hold i _).hold i _ = _
        rw [Frames.hold_hold, Frames.take_take]
        rfl
      · rw [hb3]
        show (⟨(s2.stores i).shape.isUsed, (s2.stores i).shape.frame, (s2.stores i).shape.topField,
          some b⟩ : Shape) = _
        rw [hx2]

theorem frames_combine {i t b : Nat} (hx : (s.stores i).shape = ⟨.both, none, some t, some b⟩)
    (hroom : s.frames.Room) : ∃ q, s.frames.Fresh [q] ∧
      (s.dpbCombineField i).frames = (s.frames.take [q]).hold i ⟨.both, some q, some t, some b⟩ := by
  have hframe : (s.stores i).frame = none := congrArg Shape.frame hx
  obtain ⟨q, hq, hn⟩ := hroom.one
  obtain ⟨h1, h2, h3⟩ := getNewPic_some hq .frame
  have hstore : (((s.getNewPic .frame).2.modifyStore i fun fs => { fs with frame := some q }).stores
      i).shape = ⟨.both, some q, some t, some b⟩ := by
    rw [modifyStore_self, h3]
    show (⟨(s.stores i).shape.isUsed, some q, (s.stores i).shape.topField,
      (s.stores i).shape.bottomField⟩ : Shape) = _
    rw [hx]
  refine ⟨q, hn, ?_⟩
  unfold dpbCombineField
  rw [hframe]
  dsimp only [Option.isNone_none]
  rw [if_pos rfl, h1, if_neg, frames_joinFields, ← h2]
  · apply frames_modifyStore_hold
    rw [← hstore, modifyStore_self]
  · rw [modifyStore_self]
    simp

/-- New pictures of the pool as it is while the store already holds the picture. -/
theorem fresh_of_hold {f : Frames} {i : Nat} {x : Shape} {new : List Nat}
    (hf : s.frames = f.hold i x) (hn : s.frames.Fresh new) : f.Fresh new := by
  rw [hf] at hn
  exact hn.of_hold

theorem shape_of_hold {f : Frames} {i : Nat} {x : Shape} (hf : s.frames = f.hold i x) :
    (s.stores i).shape = x :=
  (congrFun (congrArg Frames.shape hf) i).trans (if_pos rfl)

theorem inserted_alone {f : Frames} {i p : Nat} {x : Shape} (hf : s.frames = f.hold i x)
    (hs : (s.pics p).picStructure ≠ .frame) (hok : x.Ok) (hne : x.isUsed ≠ .empty)
    (hu : x.isUsed ≠ .both) (hheld : x.held = [p]) (hempty : f.shape i = .empty) :
    Inserted f (s.generateViews i p).frames i p := by
  have hused : (s.stores i).isUsed ≠ .both := fun h => hu (shape_of_hold hf ▸ h)
  refine ⟨[], x, ⟨List.nodup_nil, nofun, nofun⟩, hok, hne, ?_, ?_⟩
  · rw [hheld, hempty]
    exact List.Perm.refl [p]
  · unfold generateViews
    rw [if_neg hs, if_neg hused, frames_modifyStore, Frames.take_nil, hf]
    exact fun _ => rfl

/-- A pair of fields gets a new picture for its frame. -/
theorem inserted_pair {f : Frames} {i p t b : Nat} (hroom : f.Room)
    (hf : s.frames = f.hold i ⟨.both, none, some t, some b⟩)
    (hs : (s.pics p).picStructure ≠ .frame) (hheld : [t, b].Perm (p :: (f.shape i).held)) :
    Inserted f (s.generateViews i p).frames i p := by
  have hx := shape_of_hold hf
  have hused : (s.stores i).isUsed = .both := congrArg Shape.isUsed hx
  obtain ⟨q, hn, hg⟩ := frames_combine hx (hf ▸ hroom.hold i _)
  have hviews : s.generateViews i p = s.dpbCombineField i := by
    unfold generateViews
    rw [if_neg hs, if_pos hused]
  refine ⟨[q], ⟨.both, some q, some t, some b⟩, fresh_of_hold hf hn, by simp [Shape.Ok],
    by simp [FieldBits.both, FieldBits.empty], hheld.cons q, ?_⟩
  rw [hviews, hg, hf]
  show ((f.take [q]).hold i _).hold i _ = _
  rw [Frames.hold_hold]

theorem inserted_frame {f : Frames} {i p : Nat} (hroom : f.Room)
    (hf : s.frames = f.hold i ⟨.both, some p, none, none⟩)
    (hs : (s.pics p).picStructure = .frame) (hempty : f.shape i = .empty) :
    Inserted f (s.generateViews i p).frames i p := by
  obtain ⟨new, x, hn, hok, hu, hheld, hg⟩ := frames_split (shape_of_hold hf) (hf ▸ hroom.hold i _)
  have hviews : s.generateViews i p = s.dpbSplitField i := if_pos hs
  refine ⟨new, x, fresh_of_hold hf hn, hok, hu ▸ by decide, hempty ▸ hheld, ?_⟩
  rw [hviews, hg, hf]
  show ((f.take new).hold i _).hold i x = _
  rw [Frames.hold_hold]

/-- The views of the picture just put into a store. -/
theorem inserted_generateViews {f : Frames} {i p : Nat} (hroom : f.Room)
    (hfit : Fits (s.pics p).picStructure (f.shape i))
    (hf : s.frames = f.hold i (hungShape (s.pics p).picStructure p (f.shape i))) :
    Inserted f (s.generateViews i p).frames i p := by
  cases hp : (s.pics p).picStructure with
  | frame =>
    have hempty : f.shape i = .empty := by
      rcases hfit with he | ⟨ht, -⟩ | ⟨hb, -⟩
      · exact he
      · exact absurd (hp ▸ ht) (by decide)
      · exact absurd (hp ▸ hb) (by decide)
    rw [hp, hempty] at hf
    exact inserted_frame hroom hf hp hempty
  | topField =>
    have hne : (s.pics p).picStructure ≠ .frame := by simp [hp]
    rw [hp] at hf hfit
    rcases hfit with he | ⟨-, b, hb⟩ | ⟨hb, -⟩
    · rw [he] at hf
      exact inserted_alone hf hne (Or.inr (Or.inl ⟨p, rfl⟩)) (show FieldBits.topOnly ≠ _ by decide)
        (show FieldBits.topOnly ≠ _ by decide) rfl he
    · rw [hb] at hf
      exact inserted_pair hroom hf hne (hb ▸ List.Perm.refl [p, b])
    · exact absurd hb (by decide)
  | bottomField =>
    have hne : (s.pics p).picStructure ≠ .frame := by simp [hp]
    rw [hp] at hf hfit
    rcases hfit with he | ⟨ht, -⟩ | ⟨-, t, ht⟩
    · rw [he] at hf
      exact inserted_alone hf hne (Or.inr (Or.inr (Or.inl ⟨p, rfl⟩)))
        (show FieldBits.bottomOnly ≠ _ by decide) (show FieldBits.bottomOnly ≠ _ by decide) rfl he
    · exact absurd ht (by decide)
    · rw [ht] at hf
      exact inserted_pair hroom hf hne (ht ▸ List.Perm.swap p t [])

/-- `insert_picture_in_dpb` puts the picture into the store. -/
theorem inserted_insertPicture {i p : Nat} (dataFlag : UInt8) (hroom : s.frames.Room)
    (hfit : Fits (s.pics p).picStructure (s.stores i).shape) :
    Inserted s.frames (s.insertPictureInDpb i p dataFlag).frames i p := by
  have hcount := frames_countInserted s i p dataFlag
  have hstructure : ((s.countInserted i p dataFlag).pics p).picStructure =
      (s.pics p).picStructure :=
    modifyPic_read { s with dpbFrameCount := s.dpbFrameCount + 1 } StorablePicture.picStructure
      (f := fun q => { q with dataFlag := dataFlag }) (fun _ => rfl) (some p) p
  have hshape : ((s.countInserted i p dataFlag).stores i).shape = (s.stores i).shape :=
    congrFun (congrArg Frames.shape hcount) i
  have hput := frames_putPicture (s.countInserted i p dataFlag) i p
  rw [hcount, hstructure, hshape] at hput
  unfold insertPictureInDpb
  dsimp only
  rw [frames_modifyStore]
  · exact inserted_generateViews (s := (s.countInserted i p dataFlag).putPicture i p) hroom
      (hstructure ▸ hfit) (hstructure ▸ hput)
  · exact fun _ => rfl

/-! ## Storing a picture -/

/-- What `store_picture_in_dpb` leaves: on success the picture belongs to a frame store. -/
def Stored (r : Int × Dpb) (p : Nat) : Prop :=
  (r.1 < 0 ∧ r.2.frames.Pooled (some p)) ∨
    (r.1 = 0 ∧ { r.2.frames with decPicture := none }.Pooled none)

/-- The frames after a picture was put into an empty store behind the used ones. -/
theorem frames_appendStore {i p : Nat} (dataFlag : UInt8) (hroom : s.frames.Room)
    (hempty : (s.stores i).shape = .empty) : ∃ new x last, s.frames.Fresh new ∧ x.Ok ∧
      x.isUsed ≠ FieldBits.empty ∧ x.held.Perm (new ++ [p]) ∧ (∀ j, last = some j → j = i) ∧
      (s.appendStore i p dataFlag).frames =
        { (s.frames.take new).hold i x with
          usedSize := s.usedSize + 1, lastPicture := last } := by
  obtain ⟨new, x, hn, hok, hne, hheld, hg⟩ := inserted_insertPicture (i := i) (p := p) dataFlag
    hroom (Or.inl hempty)
  have hheld : x.held.Perm (new ++ [p]) := by
    rwa [show s.frames.shape i = .empty from hempty] at hheld
  unfold appendStore
  dsimp only
  generalize s.insertPictureInDpb i p dataFlag = t at hg
  refine ⟨new, x, if (t.pics p).picStructure = .frame then none else some i, hn, hok, hne, hheld,
    fun j hj => ?_, ?_⟩
  · split at hj
    · exact absurd hj nofun
    · exact (Option.some.inj hj).symm
  · show (t.countStore i p).updateRefList.updateLtrefList.outputAfterStore.frames = _
    rw [frames_of_undisplayed (undisplayed_outputAfterStore _)]
    show { t.frames with
      usedSize := t.frames.usedSize + 1
      lastPicture := if (t.pics p).picStructure = .frame then none else some i : Frames } = _
    rw [hg]
    rfl

theorem stored_appendStore {i p : Nat} (dataFlag : UInt8) (h : s.frames.Pooled (some p))
    (hi : s.fs[s.usedSize]? = some i) :
    { (s.appendStore i p dataFlag).frames with decPicture := none }.Pooled none := by
  obtain ⟨new, x, last, hn, hok, hne, hheld, hlast, hg⟩ := frames_appendStore (p := p) dataFlag
    h.room (h.buffered.shape_next hi)
  rw [hg]
  exact h.append hi hn hok hne hheld hlast

theorem stored_storeFirstField {p : Nat} (dataFlag : UInt8) (h : s.frames.Pooled (some p)) :
    Stored (s.storeFirstField p dataFlag) p := by
  have hroom := pooled_moves ((moves_makeRoom s rfl).trans (moves_dropDuplicates _ _ p)) h
  unfold storeFirstField
  generalize (s.makeRoom p).dropDuplicates p = r at hroom
  dsimp only
  split
  · exact Or.inl ⟨show (-2 : Int) < 0 by decide, hroom⟩
  · split
    · exact Or.inl ⟨show (-1 : Int) < 0 by decide, hroom⟩
    · next i hi => exact Or.inr ⟨rfl, stored_appendStore dataFlag hroom hi⟩

theorem fits_of_isSecondField {i p : Nat} (hok : (s.stores i).shape.Ok)
    (h : s.isSecondField i p = true) :
    Fits (s.pics p).picStructure (s.stores i).shape ∧ (s.stores i).isUsed ≠ .empty := by
  simp only [isSecondField, Bool.and_eq_true, Bool.or_eq_true, decide_eq_true_eq] at h
  rcases h.2.1 with ⟨hp, hu⟩ | ⟨hp, hu⟩
  · exact ⟨Or.inr (Or.inl ⟨hp, hok.bottom_alone hu⟩), hu ▸ by decide⟩
  · exact ⟨Or.inr (Or.inr ⟨hp, hok.top_alone hu⟩), hu ▸ by decide⟩

theorem stored_storeSecondField {i p : Nat} (dataFlag : UInt8) (h : s.frames.Pooled (some p))
    (hsecond : s.isSecondField i p = true) :
    { (s.storeSecondField i p dataFlag).frames with decPicture := none }.Pooled none := by
  obtain ⟨hfit, hne⟩ := fits_of_isSecondField (h.buffered.shape_ok i) hsecond
  obtain ⟨new, x, hn, hok, hx, hheld, hg⟩ := inserted_insertPicture dataFlag h.room hfit
  unfold storeSecondField
  dsimp only
  rw [frames_of_undisplayed (undisplayed_outputAfterPair _)]
  show { (s.insertPictureInDpb i p dataFlag).frames with
    lastPicture := none, decPicture := none : Frames }.Pooled none
  rw [hg]
  exact h.complete ((h.buffered.used_iff i).mpr hne) hn hok hx hheld

theorem stored_storePicture {p : Nat} (dataFlag : UInt8) (h : s.frames.Pooled (some p)) :
    Stored (s.storePictureInDpb p dataFlag) p := by
  have hmark := pooled_moves (moves_storeMarking s rfl) h
  unfold storePictureInDpb
  dsimp only
  split
  · next i hi =>
    have hsecond := (Option.filter_eq_some_iff.mp hi).2
    exact Or.inr ⟨rfl, stored_storeSecondField dataFlag hmark hsecond⟩
  · exact stored_storeFirstField dataFlag hmark

/-! ## The calls -/

theorem frames_releaseCurrent {p : Nat} (h : s.mVideo.decPicture = some p) :
    s.releaseCurrent.frames = { s.frames.free [p] with decPicture := none } := by
  unfold releaseCurrent
  rw [h]
  show { (s.freePicture (some p)).frames with decPicture := none : Frames } = _
  rw [frames_freePicture]
  rfl

theorem pooled_releaseCurrent (h : s.frames.Pooled d) : s.releaseCurrent.frames.Pooled none := by
  have hcur : s.mVideo.decPicture = d := h.current
  cases d with
  | none =>
    unfold releaseCurrent
    rw [hcur]
    exact h
  | some p =>
    rw [frames_releaseCurrent hcur]
    exact h.drop

theorem pooled_storeCurrent {t : Dpb} (dataFlag : UInt8) (h : s.frames.Pooled d)
    (hs : s.storeCurrent dataFlag = some t) : t.frames.Pooled none := by
  unfold storeCurrent at hs
  split at hs
  · exact absurd hs nofun
  · next p hp =>
    have hcur : d = some p := h.current.symm.trans hp
    rw [hcur] at h
    dsimp only at hs
    rcases stored_storePicture dataFlag h with ⟨hneg, hpool⟩ | ⟨hzero, hpool⟩
    · rw [if_pos hneg] at hs
      exact Option.some.inj hs ▸ pooled_releaseCurrent hpool
    · rw [if_neg (by omega)] at hs
      have hpost : (s.storePictureInDpb p dataFlag).2.bufmgrPost.dropCurrent.frames =
          { (s.storePictureInDpb p dataFlag).2.frames with decPicture := none } := by
        unfold bufmgrPost
        split <;> rfl
      rw [← Option.some.inj hs, hpost]
      exact hpool

/-! ## Slices -/

theorem frames_initPicture (s : Dpb) (p : Nat) : (s.initPicture p).frames = s.frames := by
  unfold initPicture
  dsimp only
  rw [frames_modifyPic]
  exact fun _ => rfl

theorem frames_updatePicNum (s : Dpb) : s.updatePicNum.frames = s.frames :=
  frames_of_unnumbered (unnumbered_updatePicNum s)

theorem frames_checkFrameStoreSamePicNum (s : Dpb) (p : Nat) :
    (s.checkFrameStoreSamePicNum p).frames = s.frames := by
  unfold checkFrameStoreSamePicNum
  split
  · rfl
  · dsimp only
    rw [frames_modifyPic]
    intro q
    dsimp only
    split <;> rfl

theorem frames_decodeSlicePoc (s : Dpb) : s.decodeSlicePoc.frames = s.frames := by
  unfold decodeSlicePoc
  dsimp only
  generalize hv : (if s.mSlice.nalReferenceIdc ≠ 0 then
    { s.mVideo with preFrameNum := s.mSlice.frameNum } else s.mVideo) = v
  have hvideo : v.decPicture = s.mVideo.decPicture ∧
      v.noReferencePicture = s.mVideo.noReferencePicture := by
    rw [← hv]
    split <;> exact ⟨rfl, rfl⟩
  have hkey := decodePoc_videoKey s.mSPS v s.mSlice
  simp only [videoKey, Prod.mk.injEq] at hkey
  show { s.frames with
    decPicture := (decodePoc s.mSPS v s.mSlice).1.decPicture
    noReferencePicture := (decodePoc s.mSPS v s.mSlice).1.noReferencePicture : Frames } = _
  rw [hkey.2.1, hkey.2.2, hvideo.1, hvideo.2]
  rfl

theorem pooled_takePicture (h : s.frames.Pooled none) :
    ∃ p, s.takePicture.frames.Pooled (some p) := by
  obtain ⟨p, hp, hn⟩ := h.room.one
  obtain ⟨h1, h2, -⟩ := getNewPic_some hp s.mSlice.picStructure
  have htake : s.takePicture.frames = { s.frames.take [p] with decPicture := some p } := by
    unfold takePicture
    dsimp only
    rw [h1, ← h2]
    rfl
  exact ⟨p, htake ▸ h.decode hn⟩

theorem pooled_startPicture (h : s.frames.Pooled none) :
    ∃ p, s.startPicture.frames.Pooled (some p) := by
  rw [← frames_decodeSlicePoc] at h
  obtain ⟨p, hp⟩ := pooled_takePicture h
  have hcur : s.decodeSlicePoc.takePicture.mVideo.decPicture = some p := hp.current
  refine ⟨p, ?_⟩
  unfold startPicture
  dsimp only
  rw [hcur]
  dsimp only
  split
  · rw [frames_updatePicNum, frames_initPicture]
    exact hp
  · rw [frames_checkFrameStoreSamePicNum, frames_updatePicNum, frames_initPicture]
    exact hp

theorem pooled_beginSlice (h : SliceParam) (hs : s.frames.Pooled d) :
    ∃ p, (s.beginSlice h).frames.Pooled (some p) := by
  have hcur : s.mVideo.decPicture = d := hs.current
  unfold beginSlice
  dsimp only
  rw [hcur]
  cases d with
  | none =>
    split
    · exact pooled_startPicture hs
    · next hn => exact absurd rfl hn
  | some p =>
    split
    · next hn => exact absurd hn nofun
    · exact ⟨p, hs⟩

theorem frames_sliceHeader (s : Dpb) (h : SliceParam) (bufs : Bool) :
    (s.h264SliceHeaderProcess h bufs).2.frames = (s.beginSlice h).frames := by
  unfold h264SliceHeaderProcess
  dsimp only
  split <;> rfl

/-- A call but for a slice keeps buffer and pool in order, and leaves the current picture or
none. -/
theorem pooled_other {t : Dpb} {op : Op} (hop : ∀ h' bufs, op ≠ .slice h' bufs)
    (h : s.frames.Pooled d) (hs : step s op = some t) :
    t.frames.Pooled d ∨ t.frames.Pooled none := by
  cases op with
  | slice h' bufs => exact absurd rfl (hop h' bufs)
  | store dataFlag answers =>
    exact Or.inr (pooled_storeCurrent (s := { s with answers := answers }) dataFlag h hs)
  | release => exact Option.some.inj hs ▸ Or.inr (pooled_releaseCurrent h)
  | flush answers =>
    exact Option.some.inj hs ▸ Or.inl (pooled_moves (moves_flush d { s with answers := answers }) h)
  | removeUnused => exact Option.some.inj hs ▸ Or.inl (pooled_moves (moves_removeUnused d s) h)
  | bufmgrRemoveUnused f =>
    exact Option.some.inj hs ▸ Or.inl (pooled_moves (moves_bufmgrRemoveUnused d s f) h)
  | output flushFlag answers =>
    exact Option.some.inj hs ▸
      Or.inl (pooled_move (.output { s with answers := answers } flushFlag) h)
  | setFrameOutputFlag index =>
    exact Option.some.inj hs ▸ Or.inl (pooled_move (.flag s index) h)
  | configure c frameMbsOnlyFlag => exact Option.some.inj hs ▸ Or.inl h

/-- Every call keeps buffer and pool in order. -/
theorem pooled_step {t : Dpb} (op : Op) (h : ∃ d, s.frames.Pooled d) (hs : step s op = some t) :
    ∃ d, t.frames.Pooled d := by
  obtain ⟨d, h⟩ := h
  by_cases hop : ∃ h' bufs, op = .slice h' bufs
  · obtain ⟨h', bufs, rfl⟩ := hop
    obtain ⟨p, hp⟩ := pooled_beginSlice h' h
    refine Option.some.inj hs ▸ ⟨some p, ?_⟩
    rw [frames_sliceHeader]
    exact hp
  · rcases pooled_other (fun h' bufs he => hop ⟨h', bufs, he⟩) h hs with ht | ht
    · exact ⟨d, ht⟩
    · exact ⟨none, ht⟩

/-! ## The start -/

/-- A buffer without frame stores in use, and the first picture of the pool for a missing
reference. -/
def startFrames (size : Nat) : Frames where
  picUsed := fun _ => false
  shape := fun _ => .empty
  fs := List.range size
  usedSize := 0
  lastPicture := none
  decPicture := none
  noReferencePicture := none
  starved := False

theorem frames_makeNoReference {q : Nat} (h : s.frames.freePic = some q)
    (hnone : s.mVideo.noReferencePicture = none) :
    s.makeNoReferencePicture.frames =
      { s.frames.take [q] with noReferencePicture := some q } := by
  obtain ⟨h1, h2, -⟩ := getNewPic_some h .frame
  have hpic := frames_modifyPic (f := fun p => { p with
    topField := some q, bottomField := some q, frame := some q }) (s.getNewPic .frame).2
    (fun _ => rfl) (some q)
  unfold makeNoReferencePicture
  rw [hnone]
  dsimp only [Option.isNone_none]
  rw [if_pos rfl, h1]
  show { ((s.getNewPic .frame).2.modifyPic (some q) fun p => { p with
      topField := some q, bottomField := some q, frame := some q }).frames with
    decPicture := s.mVideo.decPicture, noReferencePicture := some q : Frames } = _
  rw [hpic, h2]
  rfl

theorem initial_frames (size : Nat) (sps : SPSParameters) (c : Config) (first : FirstInsertFrm) :
    (initial size sps c first).frames =
      { (startFrames size).take [0] with noReferencePicture := some 0 } := by
  have hstart : (({ mSPS := sps, config := c, firstInsertFrame := first } : Dpb).emptyDpb
      size).frames = startFrames size := by
    have hstarved : (Event.noPicture ∈ ([] : List Event)) = False := eq_false List.not_mem_nil
    exact congrArg (fun starved => { startFrames size with starved := starved }) hstarved
  have hfree : (startFrames size).freePic = some 0 := rfl
  have hmake := frames_makeNoReference (q := 0) (hstart ▸ hfree) rfl
  rw [hstart] at hmake
  exact hmake

theorem pooled_initial {size : Nat} (hsize : size ≤ DPB_SIZE_MAX) (sps : SPSParameters)
    (c : Config) (first : FirstInsertFrm) : (initial size sps c first).frames.Pooled none := by
  have hlen : (List.range size).length = size := List.length_range
  rw [initial_frames]
  refine ⟨⟨?_, Nat.zero_le _, fun i => ?_, nofun, fun i => Or.inl rfl⟩,
    ⟨List.nodup_singleton 0, fun q => ?_, fun q hq => ?_, rfl⟩, ?_, id, rfl⟩
  · show (List.range size).Perm (List.range (List.range size).length)
    rw [hlen]
  · exact iff_of_false List.not_mem_nil fun h => h rfl
  · show (if q ∈ [0] then true else false) = true ↔ q ∈ [0]
    simp
  · rw [List.mem_singleton.mp hq]
    decide
  · show (List.range size).length ≤ DPB_SIZE_MAX
    rw [hlen]
    exact hsize

theorem pooled_reachable (h : Reachable s) : ∃ d, s.frames.Pooled d := by
  obtain ⟨size, sps, c, first, hsize, hr⟩ := h
  exact Lib.Run.reaches_invariant (fun _ op _ hp hs => pooled_step op hp hs)
    ⟨none, pooled_initial hsize sps c first⟩ hr

/-! ## Every reachable buffer -/

/-- The pictures of a frame store, each in its role. -/
def heldBy (s : Dpb) (i : Nat) : List Nat :=
  (s.stores i).frame.toList ++ (s.stores i).topField.toList ++ (s.stores i).bottomField.toList

/-- The stand-in for a missing reference, the current picture and the pictures of the frame stores
in use, each in its role. -/
def owners (s : Dpb) : List Nat :=
  s.mVideo.noReferencePicture.toList ++ s.mVideo.decPicture.toList ++ s.used.flatMap s.heldBy

/-- Every picture in use has one owner, there are at most three pictures for each frame store and
two more, and `get_new_pic` always finds one. -/
structure PicturesOwned (s : Dpb) : Prop where
  used_iff : ∀ q, (s.pics q).isUsed = true ↔ s.owners.count q = 1
  owned_once : ∀ q, s.owners.count q ≤ 1
  used_count : (List.range MAX_PIC_BUF_NUM).countP (fun q => (s.pics q).isUsed) ≤ 3 * s.size + 2
  never_failed : Event.noPicture ∉ s.trace
  never_fails : ∀ t, (s.getNewPic t).1.isSome = true

/-- Pictures neither leak nor run out, in any run. -/
theorem pictures_owned (s : Dpb) (h : Reachable s) : s.PicturesOwned := by
  obtain ⟨d, hp⟩ := pooled_reachable h
  have howners : s.frames.roots = s.owners := rfl
  have hnd : s.owners.Nodup := howners ▸ hp.owned.roots_nodup
  refine ⟨fun q => ?_, fun q => List.nodup_iff_count_le_one.mp hnd q, ?_, hp.fed, fun t => ?_⟩
  · refine (hp.owned.used_iff_root q).trans ⟨fun hm => List.count_eq_one_of_mem hnd hm, fun hc => ?_⟩
    exact List.count_pos_iff.mp (show 0 < s.owners.count q by omega)
  · have hcount := hp.owned.countP_le
    have hlen := hp.buffered.roots_length
    have hle : s.usedSize ≤ s.size := hp.buffered.used_le
    have hsize : s.frames.usedSize = s.usedSize := rfl
    apply Nat.le_trans hcount
    omega
  · obtain ⟨q, hq, -⟩ := hp.room.one
    rw [(getNewPic_some hq t).1]
    rfl

/-- Two fields of one frame: the frame store owns them and a new picture for the pair. -/
theorem pictures_owned_pair : ∃ s, Lib.Run.run step (initial 2 {} {} .idle)
      [.slice { nalReferenceIdc := 1, picStructure := .topField } true, .store 0 [],
        .slice { nalReferenceIdc := 1, picStructure := .bottomField } true, .store 0 []] = some s ∧
    s.PicturesOwned ∧ s.owners = [0, 3, 1, 2] := by
  obtain ⟨s, hs⟩ := Option.isSome_iff_exists.mp
    (by decide +kernel : (Lib.Run.run step (initial 2 {} {} .idle)
      [.slice { nalReferenceIdc := 1, picStructure := .topField } true, .store 0 [],
        .slice { nalReferenceIdc := 1, picStructure := .bottomField } true, .store 0 []]).isSome = true)
  have hreach : Reachable s := ⟨2, {}, {}, .idle, by decide, _, hs⟩
  exact ⟨s, hs, pictures_owned s hreach, Lib.Run.read_of_run owners (by decide +kernel) hs⟩

end MediaModules.H264Dpb.Dpb
