import MediaModules.H264Dpb.Frames

/-!
# The pool of pictures and the order of the frame stores

What the buffer is for, without the decoder around it: pictures come from a pool of fixed size,
every picture in use has one owner, and the frame stores in use stand in front of the others.
-/
namespace MediaModules.H264Dpb

namespace Shape

/-- The shape of a frame store that is not in use. -/
def empty : Shape := ⟨.empty, none, none, none⟩

/-- The pictures of a frame store, each in its role. -/
def held (x : Shape) : List Nat := x.frame.toList ++ x.topField.toList ++ x.bottomField.toList

/-- A single field lies alone; a frame, or a pair of fields, has its frame view and both field
views or, for a frame that is never split, neither of them. -/
def Ok (x : Shape) : Prop :=
  x = empty ∨ (∃ p, x = ⟨.topOnly, none, some p, none⟩) ∨ (∃ p, x = ⟨.bottomOnly, none, none, some p⟩) ∨
    (∃ p, x = ⟨.both, some p, none, none⟩) ∨ ∃ p t b, x = ⟨.both, some p, some t, some b⟩

theorem Ok.held_length {x : Shape} (h : x.Ok) : x.held.length ≤ 3 := by
  rcases h with rfl | ⟨p, rfl⟩ | ⟨p, rfl⟩ | ⟨p, rfl⟩ | ⟨p, t, b, rfl⟩ <;> simp [held, empty]

theorem Ok.held_empty {x : Shape} (h : x.Ok) (hu : x.isUsed = .empty) : x = empty := by
  rcases h with rfl | ⟨p, rfl⟩ | ⟨p, rfl⟩ | ⟨p, rfl⟩ | ⟨p, t, b, rfl⟩
  · rfl
  · exact absurd (show FieldBits.topOnly = .empty from hu) (by decide)
  · exact absurd (show FieldBits.bottomOnly = .empty from hu) (by decide)
  · exact absurd (show FieldBits.both = .empty from hu) (by decide)
  · exact absurd (show FieldBits.both = .empty from hu) (by decide)

theorem Ok.top_alone {x : Shape} (h : x.Ok) (hu : x.isUsed = .topOnly) :
    ∃ t, x = ⟨.topOnly, none, some t, none⟩ := by
  rcases h with rfl | h | ⟨p, rfl⟩ | ⟨p, rfl⟩ | ⟨p, t, b, rfl⟩
  · exact absurd (show FieldBits.empty = .topOnly from hu) (by decide)
  · exact h
  · exact absurd (show FieldBits.bottomOnly = .topOnly from hu) (by decide)
  · exact absurd (show FieldBits.both = .topOnly from hu) (by decide)
  · exact absurd (show FieldBits.both = .topOnly from hu) (by decide)

theorem Ok.bottom_alone {x : Shape} (h : x.Ok) (hu : x.isUsed = .bottomOnly) :
    ∃ b, x = ⟨.bottomOnly, none, none, some b⟩ := by
  rcases h with rfl | ⟨p, rfl⟩ | h | ⟨p, rfl⟩ | ⟨p, t, b, rfl⟩
  · exact absurd (show FieldBits.empty = .bottomOnly from hu) (by decide)
  · exact absurd (show FieldBits.topOnly = .bottomOnly from hu) (by decide)
  · exact h
  · exact absurd (show FieldBits.both = .bottomOnly from hu) (by decide)
  · exact absurd (show FieldBits.both = .bottomOnly from hu) (by decide)

end Shape

namespace Frames

variable (f : Frames)

/-- The frame stores in use. -/
def used : List Nat := f.fs.take f.usedSize

/-- The owned pictures: the stand-in for a missing reference, the current picture and the
pictures of the frame stores in use. -/
def roots : List Nat :=
  f.noReferencePicture.toList ++ f.decPicture.toList ++ f.used.flatMap fun i => (f.shape i).held

/-- The first picture of the pool that is not in use. -/
def freePic : Option Nat := (List.range MAX_PIC_BUF_NUM).find? fun q => !f.picUsed q

/-- Take pictures from the pool. -/
def take (qs : List Nat) : Frames :=
  { f with picUsed := fun q => if q ∈ qs then true else f.picUsed q }

/-- Give pictures back. -/
def free (qs : List Nat) : Frames :=
  { f with picUsed := fun q => if q ∈ qs then false else f.picUsed q }

/-- Give a frame store a shape. -/
def hold (i : Nat) (x : Shape) : Frames :=
  { f with shape := fun j => if j = i then x else f.shape j }

/-- Empty the frame store at a position and move it behind the used ones. -/
def remove (pos i : Nat) : Frames :=
  { (f.free (f.shape i).held).hold i .empty with
    fs := f.used.eraseIdx pos ++ i :: f.fs.drop f.usedSize
    usedSize := f.usedSize - 1 }

/-- The frame stores in use stand in front of the others, and every one has a sound shape. -/
structure Buffered : Prop where
  fs_perm : f.fs.Perm (List.range f.fs.length)
  used_le : f.usedSize ≤ f.fs.length
  used_iff : ∀ i, i ∈ f.used ↔ (f.shape i).isUsed ≠ .empty
  last_mem : ∀ i, f.lastPicture = some i → i ∈ f.fs
  shape_ok : ∀ i, (f.shape i).Ok

/-- A picture is in use iff it has an owner, and then it has one. -/
structure Owned : Prop where
  roots_nodup : f.roots.Nodup
  used_iff_root : ∀ q, f.picUsed q = true ↔ q ∈ f.roots
  root_lt : ∀ q ∈ f.roots, q < MAX_PIC_BUF_NUM
  noReference : f.noReferencePicture.isSome

/-- Buffer and pool in order, the pool large enough so far, and the current picture. -/
structure Pooled (current : Option Nat) : Prop where
  buffered : f.Buffered
  owned : f.Owned
  size_le : f.fs.length ≤ DPB_SIZE_MAX
  fed : ¬ f.starved
  current : f.decPicture = current

variable {f}

/-! ## Taking and giving back -/

/-- New pictures of a pool: different ones that are not in use. -/
structure Fresh (f : Frames) (qs : List Nat) : Prop where
  nodup : qs.Nodup
  unused : ∀ q ∈ qs, f.picUsed q = false
  lt : ∀ q ∈ qs, q < MAX_PIC_BUF_NUM

/-- New pictures that get an owner each. -/
theorem Owned.grow {g : Frames} {new : List Nat} (h : f.Owned) (hn : f.Fresh new)
    (hroots : g.roots.Perm (new ++ f.roots)) (hused : g.picUsed = (f.take new).picUsed)
    (href : g.noReferencePicture = f.noReferencePicture) : g.Owned where
  roots_nodup := by
    rw [hroots.nodup_iff, List.nodup_append]
    refine ⟨hn.nodup, h.roots_nodup, fun a ha b hb hab => ?_⟩
    have hua := hn.unused a ha
    rw [hab, (h.used_iff_root b).mpr hb] at hua
    exact absurd hua (by decide)
  used_iff_root q := by
    rw [hused, hroots.mem_iff, List.mem_append, ← h.used_iff_root q]
    show (if q ∈ new then true else f.picUsed q) = true ↔ _
    split
    · next hq => simp [hq]
    · next hq => simp [hq]
  root_lt q hq := by
    rcases List.mem_append.mp (hroots.mem_iff.mp hq) with hq | hq
    · exact hn.lt q hq
    · exact h.root_lt q hq
  noReference := href ▸ h.noReference

/-- Pictures given back together with their owners. -/
theorem Owned.shrink {g : Frames} {a : List Nat} (h : f.Owned)
    (hroots : f.roots.Perm (a ++ g.roots)) (hused : g.picUsed = (f.free a).picUsed)
    (href : g.noReferencePicture = f.noReferencePicture) : g.Owned := by
  have hnd := hroots.nodup_iff.mp h.roots_nodup
  obtain ⟨-, hg, hdisj⟩ := List.nodup_append.mp hnd
  refine ⟨hg, fun q => ?_, fun q hq => ?_, href ▸ h.noReference⟩
  · rw [hused]
    show (if q ∈ a then false else f.picUsed q) = true ↔ _
    split
    · next hq =>
      have hr : q ∉ g.roots := fun hr => hdisj q hq q hr rfl
      simp [hr]
    · next hq => rw [h.used_iff_root, hroots.mem_iff, List.mem_append, or_iff_right hq]
  · exact h.root_lt q (hroots.mem_iff.mpr (List.mem_append_right _ hq))

/-- There are at most three pictures for each frame store, and two more. -/
theorem Buffered.roots_length (h : f.Buffered) : f.roots.length ≤ 3 * f.usedSize + 2 := by
  have hheld (xs : List Nat) : (xs.flatMap fun i => (f.shape i).held).length ≤ 3 * xs.length := by
    induction xs with
    | nil => exact Nat.le_refl 0
    | cons i rest ih =>
      have hi := (h.shape_ok i).held_length
      simp only [List.flatMap_cons, List.length_append, List.length_cons]
      omega
  have hopt (o : Option Nat) : o.toList.length ≤ 1 := by cases o <;> simp
  have hnr := hopt f.noReferencePicture
  have hdec := hopt f.decPicture
  have hall := hheld f.used
  have hlen : f.used.length ≤ f.usedSize := List.length_take_le _ _
  simp only [roots, List.length_append]
  omega

/-- A pool in which fewer pictures have an owner than there are has one to give. -/
theorem freePic_isSome {r : List Nat} (h : ∀ q, f.picUsed q = true → q ∈ r)
    (hlen : r.length < MAX_PIC_BUF_NUM) : ∃ q, f.freePic = some q ∧ f.Fresh [q] := by
  cases hf : f.freePic with
  | none =>
    have hall : ∀ q ∈ List.range MAX_PIC_BUF_NUM, q ∈ r := fun q hq =>
      h q (by simpa using List.find?_eq_none.mp hf q hq)
    have hle := (List.subperm_of_subset List.nodup_range hall).length_le
    rw [List.length_range] at hle
    omega
  | some q =>
    refine ⟨q, rfl, List.nodup_singleton q, fun r hr => ?_, fun r hr => ?_⟩
    · rw [List.mem_singleton.mp hr]
      simpa using List.find?_some hf
    · rw [List.mem_singleton.mp hr]
      exact List.mem_range.mp (List.mem_of_find?_eq_some hf)

/-- No more pictures are in use than have an owner. -/
theorem Owned.countP_le (h : f.Owned) :
    (List.range MAX_PIC_BUF_NUM).countP f.picUsed ≤ f.roots.length := by
  rw [List.countP_eq_length_filter]
  refine (List.subperm_of_subset (List.nodup_range.filter _) fun q hq => ?_).length_le
  exact (h.used_iff_root q).mp (List.mem_filter.mp hq).2

/-- A picture more, with pictures to spare. -/
theorem Fresh.take {qs : List Nat} {q : Nat} (h : f.Fresh qs) (hq : (f.take qs).Fresh [q]) :
    f.Fresh (qs ++ [q]) := by
  have hmem : q ∈ [q] := List.mem_singleton.mpr rfl
  have hun : (if q ∈ qs then true else f.picUsed q) = false := hq.unused q hmem
  have hnot : q ∉ qs := fun hm => by simp [hm] at hun
  rw [if_neg hnot] at hun
  refine ⟨?_, fun r hr => ?_, fun r hr => ?_⟩
  · exact List.nodup_append.mpr ⟨h.nodup, hq.nodup, fun a ha b hb hab =>
      hnot (List.mem_singleton.mp hb ▸ hab ▸ ha)⟩
  · rcases List.mem_append.mp hr with hr | hr
    · exact h.unused r hr
    · exact List.mem_singleton.mp hr ▸ hun
  · rcases List.mem_append.mp hr with hr | hr
    · exact h.lt r hr
    · exact hq.lt r hr

theorem take_take (f : Frames) (a b : List Nat) : (f.take a).take b = f.take (a ++ b) := by
  have hused : (fun q => if q ∈ b then true else if q ∈ a then true else f.picUsed q) =
      fun q => if q ∈ a ++ b then true else f.picUsed q := by
    funext q
    by_cases ha : q ∈ a <;> by_cases hb : q ∈ b <;> simp [ha, hb]
  exact congrArg (fun used => { f with picUsed := used }) hused

theorem take_nil (f : Frames) : f.take [] = f := by
  have hused : (fun q => if q ∈ [] then true else f.picUsed q) = f.picUsed := by
    funext q
    simp
  exact congrArg (fun used => { f with picUsed := used }) hused

theorem hold_hold (f : Frames) (i : Nat) (x y : Shape) : (f.hold i x).hold i y = f.hold i y := by
  have hshape : (fun j => if j = i then y else if j = i then x else f.shape j) =
      fun j => if j = i then y else f.shape j := by
    funext j
    by_cases hj : j = i <;> simp [hj]
  exact congrArg (fun shape => { f with shape := shape }) hshape

/-- There are two pictures to give. -/
def Room (f : Frames) : Prop :=
  ∀ qs : List Nat, qs.length ≤ 1 → ∃ q, (f.take qs).freePic = some q ∧ (f.take qs).Fresh [q]

theorem Fresh.of_hold {i : Nat} {x : Shape} {qs : List Nat} (h : (f.hold i x).Fresh qs) :
    f.Fresh qs :=
  ⟨h.nodup, h.unused, h.lt⟩

theorem Room.hold (h : f.Room) (i : Nat) (x : Shape) : (f.hold i x).Room := by
  intro qs hlen
  obtain ⟨q, hq, hn⟩ := h qs hlen
  exact ⟨q, hq, hn.nodup, hn.unused, hn.lt⟩

theorem Room.one (h : f.Room) : ∃ q, f.freePic = some q ∧ f.Fresh [q] := by
  have hone := h [] (Nat.zero_le 1)
  rwa [take_nil] at hone

/-- After a picture has been taken there is still one to give, and another one. -/
theorem Pooled.room {d : Option Nat} (h : f.Pooled d) : f.Room := by
  intro qs hlen
  refine freePic_isSome (r := qs ++ f.roots) (fun q hq => ?_) ?_
  · have hq : (if q ∈ qs then true else f.picUsed q) = true := hq
    by_cases hm : q ∈ qs
    · exact List.mem_append_left _ hm
    · rw [if_neg hm] at hq
      exact List.mem_append_right _ ((h.owned.used_iff_root q).mp hq)
  · have hroots := h.buffered.roots_length
    have hle := h.buffered.used_le
    have hsize := h.size_le
    rw [List.length_append]
    simp only [DPB_SIZE_MAX, MAX_PIC_BUF_NUM] at *
    omega

theorem Pooled.current_loose {p : Nat} (h : f.Pooled (some p)) (i : Nat) : p ∉ (f.shape i).held := by
  intro hi
  have hused : i ∈ f.used := by
    apply (h.buffered.used_iff i).mpr
    intro he
    rw [(h.buffered.shape_ok i).held_empty he] at hi
    exact absurd hi List.not_mem_nil
  have hnd := h.owned.roots_nodup
  unfold roots at hnd
  rw [h.current] at hnd
  refine (List.nodup_append.mp hnd).2.2 p ?_ p (List.mem_flatMap.mpr ⟨i, hused, hi⟩) rfl
  exact List.mem_append_right _ (List.mem_singleton.mpr rfl)

/-! ## Removing a frame store -/

theorem Buffered.fs_nodup (h : f.Buffered) : f.fs.Nodup :=
  h.fs_perm.nodup_iff.mpr List.nodup_range

theorem Buffered.used_length (h : f.Buffered) : f.used.length = f.usedSize :=
  List.length_take_of_le h.used_le

theorem Buffered.used_remove (h : f.Buffered) {pos i : Nat} (hpos : f.used[pos]? = some i) :
    (f.remove pos i).used = f.used.eraseIdx pos := by
  have hlt : pos < f.used.length := (List.getElem?_eq_some_iff.mp hpos).1
  have hlen : (f.used.eraseIdx pos).length = f.usedSize - 1 := by
    rw [List.length_eraseIdx_of_lt hlt, h.used_length]
  show (f.used.eraseIdx pos ++ i :: f.fs.drop f.usedSize).take (f.usedSize - 1) = _
  exact List.take_left' hlen

theorem Buffered.used_perm (h : f.Buffered) {pos i : Nat} (hpos : f.used[pos]? = some i) :
    f.used.Perm (i :: (f.remove pos i).used) := by
  obtain ⟨hlt, hget⟩ := List.getElem?_eq_some_iff.mp hpos
  rw [h.used_remove hpos, ← hget]
  exact (List.getElem_cons_eraseIdx_perm hlt).symm

theorem Buffered.fs_remove_perm (h : f.Buffered) {pos i : Nat} (hpos : f.used[pos]? = some i) :
    (f.remove pos i).fs.Perm f.fs := by
  have hused := h.used_perm hpos
  rw [h.used_remove hpos] at hused
  show (f.used.eraseIdx pos ++ i :: f.fs.drop f.usedSize).Perm f.fs
  calc (f.used.eraseIdx pos ++ i :: f.fs.drop f.usedSize).Perm
        (i :: f.used.eraseIdx pos ++ f.fs.drop f.usedSize) := List.perm_middle
    _ |>.Perm (f.used ++ f.fs.drop f.usedSize) := hused.symm.append_right _
    _ |>.Perm f.fs := by rw [used, List.take_append_drop]

theorem Buffered.not_mem_remove (h : f.Buffered) {pos i : Nat} (hpos : f.used[pos]? = some i) :
    i ∉ (f.remove pos i).used := by
  have hnd : f.used.Nodup := h.fs_nodup.sublist (List.take_sublist _ _)
  exact (List.nodup_cons.mp ((h.used_perm hpos).nodup_iff.mp hnd)).1

theorem Buffered.remove (h : f.Buffered) {pos i : Nat} (hpos : f.used[pos]? = some i) :
    (f.remove pos i).Buffered := by
  have hfs := h.fs_remove_perm hpos
  refine ⟨?_, ?_, fun j => ?_, fun j hj => hfs.mem_iff.mpr (h.last_mem j hj), fun j => ?_⟩
  · rw [hfs.length_eq]
    exact hfs.trans h.fs_perm
  · rw [hfs.length_eq]
    exact Nat.le_trans (Nat.sub_le _ _) h.used_le
  · show j ∈ (f.remove pos i).used ↔ (if j = i then Shape.empty else f.shape j).isUsed ≠ .empty
    split
    · next hj =>
      rw [hj]
      exact iff_of_false (h.not_mem_remove hpos) fun hu => hu rfl
    · next hj =>
      rw [← h.used_iff j, (h.used_perm hpos).mem_iff, List.mem_cons, or_iff_right hj]
  · show (if j = i then Shape.empty else f.shape j).Ok
    split
    · exact Or.inl rfl
    · exact h.shape_ok j

theorem Buffered.roots_remove (h : f.Buffered) {pos i : Nat} (hpos : f.used[pos]? = some i) :
    f.roots.Perm ((f.shape i).held ++ (f.remove pos i).roots) := by
  have hrest : ((f.remove pos i).used.flatMap fun j => (f.shape j).held) =
      (f.remove pos i).used.flatMap fun j => ((f.remove pos i).shape j).held := by
    apply List.flatMap_congr
    intro j hj
    have hne : j ≠ i := fun he => h.not_mem_remove hpos (he ▸ hj)
    show _ = (if j = i then Shape.empty else f.shape j).held
    rw [if_neg hne]
  have hall := (h.used_perm hpos).flatMap_right fun j => (f.shape j).held
  rw [List.flatMap_cons, hrest] at hall
  exact (hall.append_left _).trans (List.perm_append_comm_assoc _ _ _)

theorem Pooled.remove {d : Option Nat} (h : f.Pooled d) {pos i : Nat}
    (hpos : f.used[pos]? = some i) : (f.remove pos i).Pooled d where
  buffered := h.buffered.remove hpos
  owned := h.owned.shrink (h.buffered.roots_remove hpos) rfl rfl
  size_le := (h.buffered.fs_remove_perm hpos).length_eq ▸ h.size_le
  fed := h.fed
  current := h.current

/-! ## The current picture -/

theorem Pooled.forget {d : Option Nat} (h : f.Pooled d) :
    { f with lastPicture := none }.Pooled d where
  buffered := ⟨h.buffered.fs_perm, h.buffered.used_le, h.buffered.used_iff, nofun,
    h.buffered.shape_ok⟩
  owned := ⟨h.owned.roots_nodup, h.owned.used_iff_root, h.owned.root_lt, h.owned.noReference⟩
  size_le := h.size_le
  fed := h.fed
  current := h.current

/-- The current picture leaves the decoder without a frame store. -/
theorem Pooled.drop {p : Nat} (h : f.Pooled (some p)) :
    { f.free [p] with decPicture := none }.Pooled none := by
  refine ⟨⟨h.buffered.1, h.buffered.2, h.buffered.3, h.buffered.4, h.buffered.5⟩,
    h.owned.shrink (a := [p]) ?_ rfl rfl, h.size_le, h.fed, rfl⟩
  unfold roots
  rw [h.current]
  exact List.perm_middle.append_right _

/-- A new picture becomes the current one. -/
theorem Pooled.decode {p : Nat} (h : f.Pooled none) (hp : f.Fresh [p]) :
    { f.take [p] with decPicture := some p }.Pooled (some p) := by
  refine ⟨⟨h.buffered.1, h.buffered.2, h.buffered.3, h.buffered.4, h.buffered.5⟩,
    h.owned.grow hp ?_ rfl rfl, h.size_le, h.fed, rfl⟩
  unfold roots
  rw [h.current]
  exact List.perm_middle.append_right _

/-! ## Inserting a picture -/

/-- The pictures of the stores when one of them changes. -/
theorem flatMap_hold {xs : List Nat} {i : Nat} (hx : xs.Nodup) (hi : i ∈ xs) (x : Shape) :
    (xs.flatMap fun j => ((f.hold i x).shape j).held).Perm
      (x.held ++ (xs.erase i).flatMap fun j => (f.shape j).held) := by
  have hrest : ((xs.erase i).flatMap fun j => ((f.hold i x).shape j).held) =
      (xs.erase i).flatMap fun j => (f.shape j).held := by
    apply List.flatMap_congr
    intro j hj
    have hne : j ≠ i := fun he => hx.not_mem_erase (he ▸ hj)
    show (if j = i then x else f.shape j).held = _
    rw [if_neg hne]
  have hself : ((f.hold i x).shape i).held = x.held := by
    show (if i = i then x else f.shape i).held = _
    rw [if_pos rfl]
  have hall := (List.perm_cons_erase hi).flatMap_right fun j => ((f.hold i x).shape j).held
  rw [List.flatMap_cons, hrest, hself] at hall
  exact hall

/-- A store takes a shape: it is used afterwards iff the shape is that of a used one. -/
theorem Buffered.hold_ok (h : f.Buffered) {i : Nat} {x : Shape} (hx : x.Ok) (j : Nat) :
    ((f.hold i x).shape j).Ok := by
  show (if j = i then x else f.shape j).Ok
  split
  · exact hx
  · exact h.shape_ok j

/-- The current picture completes the frame of a store in use. -/
theorem Pooled.complete {i p : Nat} {new : List Nat} {x : Shape} (h : f.Pooled (some p))
    (hi : i ∈ f.used) (hn : f.Fresh new) (hx : x.Ok)
    (hne : x.isUsed ≠ .empty) (hheld : x.held.Perm (new ++ p :: (f.shape i).held)) :
    { (f.take new).hold i x with lastPicture := none, decPicture := none }.Pooled none := by
  have hnd : f.used.Nodup := h.buffered.fs_nodup.sublist (List.take_sublist _ _)
  refine ⟨⟨h.buffered.fs_perm, h.buffered.used_le, fun j => ?_, fun j hj => absurd hj nofun,
    fun j => h.buffered.hold_ok hx j⟩, h.owned.grow hn ?_ rfl rfl, h.size_le, h.fed, rfl⟩
  · show j ∈ f.used ↔ (if j = i then x else f.shape j).isUsed ≠ .empty
    split
    · next hj =>
      rw [hj]
      exact iff_of_true hi hne
    · exact h.buffered.used_iff j
  · -- the pictures of the store are the new ones, the current one and those it had
    have hnow : (f.used.flatMap fun j => ((f.hold i x).shape j).held).Perm
        ((new ++ p :: (f.shape i).held) ++ (f.used.erase i).flatMap fun j => (f.shape j).held) :=
      (flatMap_hold hnd hi x).trans (hheld.append_right _)
    have hbefore : (f.used.flatMap fun j => (f.shape j).held).Perm
        ((f.shape i).held ++ (f.used.erase i).flatMap fun j => (f.shape j).held) := by
      have := (List.perm_cons_erase hi).flatMap_right fun j => (f.shape j).held
      rwa [List.flatMap_cons] at this
    show (f.noReferencePicture.toList ++ [] ++ f.used.flatMap fun j =>
      ((f.hold i x).shape j).held).Perm (new ++ (f.noReferencePicture.toList ++
        f.decPicture.toList ++ f.used.flatMap fun j => (f.shape j).held))
    rw [h.current]
    apply List.perm_iff_count.mpr
    intro a
    have hnow := hnow.count_eq a
    have hbefore := hbefore.count_eq a
    simp only [List.count_append, List.count_cons, Option.toList_some, List.count_nil] at *
    omega

theorem Buffered.used_next (h : f.Buffered) {i : Nat} (hi : f.fs[f.usedSize]? = some i) :
    f.fs.take (f.usedSize + 1) = f.used ++ [i] ∧ i ∉ f.used := by
  obtain ⟨hlt, hget⟩ := List.getElem?_eq_some_iff.mp hi
  have hused : f.fs.take (f.usedSize + 1) = f.used ++ [i] := by
    rw [List.take_succ_eq_append_getElem hlt, hget]
    rfl
  have hnd : (f.used ++ [i]).Nodup :=
    hused ▸ h.fs_nodup.sublist (List.take_sublist _ _)
  exact ⟨hused, fun hm => (List.nodup_append.mp hnd).2.2 i hm i (List.mem_singleton.mpr rfl) rfl⟩

theorem Buffered.shape_next (h : f.Buffered) {i : Nat} (hi : f.fs[f.usedSize]? = some i) :
    f.shape i = .empty := by
  apply (h.shape_ok i).held_empty
  by_contra hne
  exact (h.used_next hi).2 ((h.used_iff i).mpr hne)

/-- The current picture goes into the first store that is not in use. -/
theorem Pooled.append {i p : Nat} {new : List Nat} {x : Shape} {last : Option Nat}
    (h : f.Pooled (some p)) (hi : f.fs[f.usedSize]? = some i) (hn : f.Fresh new) (hx : x.Ok)
    (hne : x.isUsed ≠ .empty) (hheld : x.held.Perm (new ++ [p]))
    (hlast : ∀ j, last = some j → j = i) :
    { (f.take new).hold i x with
      usedSize := f.usedSize + 1, lastPicture := last, decPicture := none }.Pooled none := by
  obtain ⟨hlt, hget⟩ := List.getElem?_eq_some_iff.mp hi
  obtain ⟨hused, hnot⟩ := h.buffered.used_next hi
  have hnd : (f.used ++ [i]).Nodup :=
    hused ▸ h.buffered.fs_nodup.sublist (List.take_sublist _ _)
  refine ⟨⟨h.buffered.fs_perm, hlt, fun j => ?_, fun j hj => ?_,
    fun j => h.buffered.hold_ok hx j⟩, h.owned.grow hn ?_ rfl rfl, h.size_le, h.fed, rfl⟩
  · show j ∈ f.fs.take (f.usedSize + 1) ↔ (if j = i then x else f.shape j).isUsed ≠ .empty
    rw [hused, List.mem_append, List.mem_singleton]
    split
    · next hj => exact iff_of_true (Or.inr hj) hne
    · next hj => rw [or_iff_left hj, h.buffered.used_iff j]
  · rw [hlast j hj]
    exact hget ▸ List.getElem_mem hlt
  · -- the pictures of the new store are the new ones and the current one
    have hmem : i ∈ f.used ++ [i] := List.mem_append_right _ (List.mem_singleton.mpr rfl)
    have herase : (f.used ++ [i]).erase i = f.used := by
      rw [List.erase_append_right _ hnot, List.erase_cons_head, List.append_nil]
    have hnow : ((f.used ++ [i]).flatMap fun j => ((f.hold i x).shape j).held).Perm
        ((new ++ [p]) ++ f.used.flatMap fun j => (f.shape j).held) := by
      have hall := (flatMap_hold (f := f) hnd hmem x).trans (hheld.append_right _)
      rwa [herase] at hall
    show (f.noReferencePicture.toList ++ [] ++ (f.fs.take (f.usedSize + 1)).flatMap fun j =>
      ((f.hold i x).shape j).held).Perm (new ++ (f.noReferencePicture.toList ++
        f.decPicture.toList ++ f.used.flatMap fun j => (f.shape j).held))
    rw [h.current, hused]
    apply List.perm_iff_count.mpr
    intro a
    have hnow := hnow.count_eq a
    simp only [List.count_append, List.count_cons, Option.toList_some, List.count_nil] at *
    omega

end Frames

end MediaModules.H264Dpb
