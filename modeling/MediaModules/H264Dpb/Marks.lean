import MediaModules.H264Dpb.FramePool

/-!
# Taking marks away

Most of the marking process only takes marks away: a picture that is still used for reference
afterwards is the one it was before. What a store holds can then only become less.
-/
namespace MediaModules.H264Dpb

/-- The fields of the first mask are among those of the second. -/
def FieldBits.Sub (a b : FieldBits) : Prop :=
  (a.top = true → b.top = true) ∧ (a.bottom = true → b.bottom = true)

theorem FieldBits.Sub.refl (a : FieldBits) : a.Sub a := ⟨id, id⟩

theorem FieldBits.Sub.trans {a b c : FieldBits} (h : a.Sub b) (h' : b.Sub c) : a.Sub c :=
  ⟨fun ht => h'.1 (h.1 ht), fun hb => h'.2 (h.2 hb)⟩

theorem FieldBits.Sub.empty (a : FieldBits) : FieldBits.empty.Sub a := ⟨nofun, nofun⟩

theorem FieldBits.Sub.eq_empty {a b : FieldBits} (h : a.Sub b) (hb : b = .empty) : a = .empty := by
  obtain ⟨t, b'⟩ := a
  obtain ⟨h1, h2⟩ := h
  rw [hb] at h1 h2
  have ht : t = false := Bool.eq_false_iff.mpr fun h => absurd (h1 h) (by decide)
  have hb : b' = false := Bool.eq_false_iff.mpr fun h => absurd (h2 h) (by decide)
  rw [ht, hb]
  rfl

/-- The pictures of a frame store. -/
theorem FrameStore.mem_held {fs : FrameStore} {q : Nat}
    (h : fs.frame = some q ∨ fs.topField = some q ∨ fs.bottomField = some q) :
    q ∈ fs.shape.held := by
  show q ∈ fs.frame.toList ++ fs.topField.toList ++ fs.bottomField.toList
  simp only [List.mem_append, Option.mem_toList]
  exact or_assoc.mpr h

namespace Dpb

/-- The picture lies in no frame store. -/
def Loose (s : Dpb) (q : Nat) : Prop := ∀ i, q ∉ (s.stores i).shape.held

/-- From the one state to the other marks were taken from pictures of the frame stores, and no
picture was moved. -/
structure Unmarks (s t : Dpb) : Prop where
  shape : ∀ i, (t.stores i).shape = (s.stores i).shape
  loose : ∀ q, s.Loose q → t.pics q = s.pics q
  pics : ∀ q, (t.pics q).usedForReference = true → t.pics q = s.pics q
  isReference : ∀ i, (t.stores i).isReference.Sub (s.stores i).isReference
  isLongTerm : ∀ i, (t.stores i).isLongTerm.Sub (s.stores i).isLongTerm
  longTermFrameIdx : ∀ i, (t.stores i).longTermFrameIdx = (s.stores i).longTermFrameIdx
  fsRef : t.fsRef = s.fsRef
  fsLtref : t.fsLtref = s.fsLtref

namespace Unmarks

variable {s t u : Dpb}

theorem refl (s : Dpb) : s.Unmarks s :=
  ⟨fun _ => rfl, fun _ _ => rfl, fun _ _ => rfl, fun _ => .refl _, fun _ => .refl _, fun _ => rfl,
    rfl, rfl⟩

theorem trans (h : s.Unmarks t) (h' : t.Unmarks u) : s.Unmarks u where
  shape i := (h'.shape i).trans (h.shape i)
  loose q hq := (h'.loose q fun i => h.shape i ▸ hq i).trans (h.loose q hq)
  pics q hq := by
    have hu := h'.pics q hq
    exact hu.trans (h.pics q (hu ▸ hq))
  isReference i := (h'.isReference i).trans (h.isReference i)
  isLongTerm i := (h'.isLongTerm i).trans (h.isLongTerm i)
  longTermFrameIdx i := (h'.longTermFrameIdx i).trans (h.longTermFrameIdx i)
  fsRef := h'.fsRef.trans h.fsRef
  fsLtref := h'.fsLtref.trans h.fsLtref

theorem ite {c : Prop} [Decidable c] (h : s.Unmarks t) (h' : s.Unmarks u) :
    s.Unmarks (if c then t else u) := by
  split
  · exact h
  · exact h'

theorem foldl {α : Type} {f : Dpb → α → Dpb} (h : ∀ (s : Dpb) (a : α), s.Unmarks (f s a)) (xs : List α)
    (s : Dpb) : s.Unmarks (xs.foldl f s) := by
  induction xs generalizing s with
  | nil => exact refl s
  | cons a xs ih => exact (h s a).trans (ih (f s a))

theorem modifyPic (s : Dpb) {f : StorablePicture → StorablePicture}
    (h : ∀ q, (f q).usedForReference = false) {p : Option Nat} {i : Nat}
    (hp : ∀ q, p = some q → q ∈ (s.stores i).shape.held) : s.Unmarks (s.modifyPic p f) := by
  cases p with
  | none => exact refl s
  | some p =>
    refine ⟨fun _ => rfl, fun q hq => ?_, fun q hq => ?_, fun _ => .refl _, fun _ => .refl _,
      fun _ => rfl, rfl, rfl⟩
    · rw [modifyPic_pics, if_neg]
      exact fun hqp => hq i (hqp ▸ hp p rfl)
    · rw [modifyPic_pics] at hq ⊢
      split at hq
      · rw [h] at hq
        exact absurd hq (by decide)
      · next hne => exact if_neg hne

/-- What a write to a frame store may do: take marks from it. -/
structure Lowers (f : FrameStore → FrameStore) : Prop where
  shape : ∀ fs, (f fs).shape = fs.shape
  isReference : ∀ fs, (f fs).isReference.Sub fs.isReference
  isLongTerm : ∀ fs, (f fs).isLongTerm.Sub fs.isLongTerm
  longTermFrameIdx : ∀ fs, (f fs).longTermFrameIdx = fs.longTermFrameIdx

theorem modifyStore (s : Dpb) {f : FrameStore → FrameStore} (h : Lowers f) (i : Nat) :
    s.Unmarks (s.modifyStore i f) := by
  have hstore (j : Nat) : (s.modifyStore i f).stores j = s.stores j ∨
      (s.modifyStore i f).stores j = f (s.stores j) := by
    rw [modifyStore_stores]
    split
    · next hj => exact Or.inr (by rw [hj])
    · exact Or.inl rfl
  refine ⟨modifyStore_read s FrameStore.shape h.shape i, fun _ _ => rfl, fun _ _ => rfl,
    fun j => ?_, fun j => ?_,
    modifyStore_read s FrameStore.longTermFrameIdx h.longTermFrameIdx i, rfl, rfl⟩
  · rcases hstore j with hj | hj
    · rw [hj]
      exact .refl _
    · rw [hj]
      exact h.isReference _
  · rcases hstore j with hj | hj
    · rw [hj]
      exact .refl _
    · rw [hj]
      exact h.isLongTerm _

end Unmarks

/-! ## What holds of a store -/

section Holds

variable {s t : Dpb}

theorem holds_eq_true {marked : StorablePicture → Bool} {i : Nat} :
    s.holds marked i = true ↔
      ((s.stores i).isUsed = .both ∧ marked (s.pic (s.stores i).frame) = true) ∨
      ((s.stores i).isUsed.top = true ∧ (s.stores i).topField.isSome = true ∧
        marked (s.pic (s.stores i).topField) = true) ∨
      ((s.stores i).isUsed.bottom = true ∧ (s.stores i).bottomField.isSome = true ∧
        marked (s.pic (s.stores i).bottomField) = true) := by
  simp only [holds, Bool.or_eq_true, Bool.and_eq_true, decide_eq_true_eq, and_assoc, or_assoc]

theorem shape_congr {fs gs : FrameStore} (h : fs.shape = gs.shape) :
    fs.isUsed = gs.isUsed ∧ fs.frame = gs.frame ∧ fs.topField = gs.topField ∧
      fs.bottomField = gs.bottomField :=
  ⟨congrArg Shape.isUsed h, congrArg Shape.frame h, congrArg Shape.topField h,
    congrArg Shape.bottomField h⟩

/-- What a store holds afterwards it held before, when its pictures pass the test only if they
passed it before. -/
theorem holds_mono {marked : StorablePicture → Bool} {i : Nat}
    (hshape : (t.stores i).shape = (s.stores i).shape)
    (hm : ∀ q ∈ (s.stores i).shape.held, marked (t.pics q) = true → marked (s.pics q) = true)
    (hi : t.holds marked i = true) : s.holds marked i = true := by
  obtain ⟨hu, hf, ht, hb⟩ := shape_congr hshape
  have hpic (p : Option Nat) (hp : ∀ q, p = some q → q ∈ (s.stores i).shape.held)
      (h : marked (t.pic p) = true) : marked (s.pic p) = true := by
    cases p with
    | none => exact h
    | some q => exact hm q (hp q rfl) h
  rw [holds_eq_true, hu, hf, ht, hb] at hi
  rw [holds_eq_true]
  rcases hi with ⟨h1, h2⟩ | ⟨h1, h2, h3⟩ | ⟨h1, h2, h3⟩
  · exact Or.inl ⟨h1, hpic _ (fun _ hq => FrameStore.mem_held (Or.inl hq)) h2⟩
  · exact Or.inr (Or.inl ⟨h1, h2,
      hpic _ (fun _ hq => FrameStore.mem_held (Or.inr (Or.inl hq))) h3⟩)
  · exact Or.inr (Or.inr ⟨h1, h2,
      hpic _ (fun _ hq => FrameStore.mem_held (Or.inr (Or.inr hq))) h3⟩)

theorem Unmarks.pic (h : s.Unmarks t) {m : StorablePicture → Bool}
    (hm : ∀ q, m q = true → q.usedForReference = true) {p : Option Nat}
    (hp : m (t.pic p) = true) : m (s.pic p) = true := by
  cases p with
  | none => exact hp
  | some p =>
    have hp : m (t.pics p) = true := hp
    show m (s.pics p) = true
    rw [← h.pics p (hm _ hp)]
    exact hp

/-- A store that holds a reference afterwards held it before. -/
theorem Unmarks.holds (h : s.Unmarks t) {marked : StorablePicture → Bool}
    (hm : ∀ q, marked q = true → q.usedForReference = true) {i : Nat}
    (hi : t.holds marked i = true) : s.holds marked i = true :=
  holds_mono (h.shape i) (fun q _ hq => h.pic hm (p := some q) hq) hi

theorem Unmarks.isUsedForReference (h : s.Unmarks t) {i : Nat}
    (hs : s.isUsedForReference i = false) : t.isUsedForReference i = false := by
  unfold Dpb.isUsedForReference at hs ⊢
  rw [Bool.or_eq_false_iff, decide_eq_false_iff_not, not_not] at hs ⊢
  refine ⟨(h.isReference i).eq_empty hs.1, ?_⟩
  by_contra hn
  have hheld := h.holds (fun _ hq => hq) (Bool.not_eq_false _ ▸ hn)
  rw [hs.2] at hheld
  exact absurd hheld (by decide)

end Holds

/-! ## The functions that take marks away -/

section Functions

variable (s : Dpb)

theorem unmarks_modifyPic_if (c : Prop) [Decidable c] {f : StorablePicture → StorablePicture}
    (h : ∀ q, (f q).usedForReference = false) {p : Option Nat} {i : Nat}
    (hp : ∀ q, p = some q → q ∈ (s.stores i).shape.held) :
    s.Unmarks (if c then s.modifyPic p f else s) :=
  .ite (.modifyPic s h hp) (.refl s)

variable {s}

/-- A picture written to loses its mark, or there is none. -/
theorem modifyPic_clears {f : StorablePicture → StorablePicture}
    (h : ∀ q, (f q).usedForReference = false) (p : Option Nat) :
    ((s.modifyPic p f).pic p).usedForReference = false := by
  cases p with
  | none => rfl
  | some p =>
    show ((s.modifyPic (some p) f).pics p).usedForReference = false
    rw [modifyPic_pics, if_pos rfl, h]

theorem Unmarks.cleared {t : Dpb} {c : Prop} [Decidable c] {p : Option Nat}
    {f : StorablePicture → StorablePicture} (h : ∀ q, (f q).usedForReference = false)
    (ht : (if c then s.modifyPic p f else s).Unmarks t) (hc : c) :
    (t.pic p).usedForReference = false := by
  rw [if_pos hc] at ht
  by_contra hn
  have hp := ht.pic (m := fun q => q.usedForReference) (fun _ hq => hq)
    (Bool.not_eq_false _ ▸ hn)
  rw [modifyPic_clears h] at hp
  exact absurd hp (by decide)

/-- Unmarking the pictures of a store takes marks away, those of its pictures among them. -/
theorem unmarks_modifyHeld (s : Dpb) {f : StorablePicture → StorablePicture}
    (h : ∀ q, (f q).usedForReference = false) (i : Nat) :
    s.Unmarks (s.modifyHeld i f) ∧
      (s.modifyHeld i f).holds (fun q => q.usedForReference) i = false := by
  have htop (q : Nat) (hq : (s.stores i).topField = some q) : q ∈ (s.stores i).shape.held :=
    FrameStore.mem_held (Or.inr (Or.inl hq))
  have hbottom (q : Nat) (hq : (s.stores i).bottomField = some q) : q ∈ (s.stores i).shape.held :=
    FrameStore.mem_held (Or.inr (Or.inr hq))
  have hframe (q : Nat) (hq : (s.stores i).frame = some q) : q ∈ (s.stores i).shape.held :=
    FrameStore.mem_held (Or.inl hq)
  have h1 := unmarks_modifyPic_if s ((s.stores i).isUsed.top = true) h htop
  have h2 := unmarks_modifyPic_if
    (if (s.stores i).isUsed.top then s.modifyPic (s.stores i).topField f else s)
    ((s.stores i).isUsed.bottom = true) h (p := (s.stores i).bottomField) (i := i)
    (by rw [modifyPic_if_stores]; exact hbottom)
  have h3 := unmarks_modifyPic_if
    (if (s.stores i).isUsed.bottom then
      (if (s.stores i).isUsed.top then s.modifyPic (s.stores i).topField f else s).modifyPic
        (s.stores i).bottomField f
    else if (s.stores i).isUsed.top then s.modifyPic (s.stores i).topField f else s)
    ((s.stores i).isUsed = .both) h (p := (s.stores i).frame) (i := i)
    (by rw [modifyPic_if_stores, modifyPic_if_stores]; exact hframe)
  have hstore : (s.modifyHeld i f).stores i = s.stores i := congrFun (modifyHeld_stores s i f) i
  refine ⟨(h1.trans h2).trans h3, ?_⟩
  by_contra hn
  rw [Bool.not_eq_false, holds_eq_true, hstore] at hn
  rcases hn with ⟨hu, hm⟩ | ⟨hu, -, hm⟩ | ⟨hu, -, hm⟩
  · rw [Unmarks.cleared h (.refl (s.modifyHeld i f)) hu] at hm
    exact absurd hm (by decide)
  · rw [Unmarks.cleared (t := s.modifyHeld i f) h (h2.trans h3) hu] at hm
    exact absurd hm (by decide)
  · rw [Unmarks.cleared (t := s.modifyHeld i f) h h3 hu] at hm
    exact absurd hm (by decide)

variable (s)

theorem unmarks_unmarkForReference (i : Nat) : s.Unmarks (s.unmarkForReference i) := by
  refine (unmarks_modifyHeld s (fun _ => rfl) i).1.trans (.modifyStore _ ?_ i)
  exact ⟨fun _ => rfl, fun _ => .empty _, fun _ => .refl _, fun _ => rfl⟩

theorem unmarks_unmarkForLongTermReference (i : Nat) :
    s.Unmarks (s.unmarkForLongTermReference i) := by
  refine (unmarks_modifyHeld s (fun _ => rfl) i).1.trans (.modifyStore _ ?_ i)
  exact ⟨fun _ => rfl, fun _ => .empty _, fun _ => .empty _, fun _ => rfl⟩

/-- A field loses its marks, its store the bits of the field, and the frame its own marks. -/
theorem unmarks_field {p : Option Nat} {i : Nat} {f : StorablePicture → StorablePicture}
    {g : FrameStore → FrameStore} (hf : ∀ q, (f q).usedForReference = false)
    (hg : Unmarks.Lowers g) (hp : ∀ q, p = some q → q ∈ (s.stores i).shape.held) :
    s.Unmarks (if (((s.modifyPic p f).modifyStore i g).stores i).isUsed = .both then
        ((s.modifyPic p f).modifyStore i g).modifyPic
          (((s.modifyPic p f).modifyStore i g).stores i).frame f
      else (s.modifyPic p f).modifyStore i g) := by
  have hframe := unmarks_modifyPic_if ((s.modifyPic p f).modifyStore i g)
    ((((s.modifyPic p f).modifyStore i g).stores i).isUsed = .both) hf
    (p := (((s.modifyPic p f).modifyStore i g).stores i).frame) (i := i)
    (fun _ hq => FrameStore.mem_held (Or.inl hq))
  exact ((Unmarks.modifyPic s hf hp).trans (.modifyStore _ hg i)).trans hframe

theorem Unmarks.Lowers.clearTop : Unmarks.Lowers fun fs =>
    { fs with isReference := { fs.isReference with top := false } } :=
  ⟨fun _ => rfl, fun _ => ⟨nofun, id⟩, fun _ => .refl _, fun _ => rfl⟩

theorem Unmarks.Lowers.clearBottom : Unmarks.Lowers fun fs =>
    { fs with isReference := { fs.isReference with bottom := false } } :=
  ⟨fun _ => rfl, fun _ => ⟨id, nofun⟩, fun _ => .refl _, fun _ => rfl⟩

theorem Unmarks.Lowers.clearLongTop : Unmarks.Lowers fun fs => { fs with
    isReference := { fs.isReference with top := false }
    isLongTerm := { fs.isLongTerm with top := false } } :=
  ⟨fun _ => rfl, fun _ => ⟨nofun, id⟩, fun _ => ⟨nofun, id⟩, fun _ => rfl⟩

theorem Unmarks.Lowers.clearLongBottom : Unmarks.Lowers fun fs => { fs with
    isReference := { fs.isReference with bottom := false }
    isLongTerm := { fs.isLongTerm with bottom := false } } :=
  ⟨fun _ => rfl, fun _ => ⟨id, nofun⟩, fun _ => ⟨id, nofun⟩, fun _ => rfl⟩

theorem unmarks_unmarkTop (i : Nat) : s.Unmarks (s.unmarkTop i) :=
  unmarks_field s (fun _ => rfl) .clearTop fun _ hq => FrameStore.mem_held (Or.inr (Or.inl hq))

theorem unmarks_unmarkBottom (i : Nat) : s.Unmarks (s.unmarkBottom i) :=
  unmarks_field s (fun _ => rfl) .clearBottom fun _ hq => FrameStore.mem_held (Or.inr (Or.inr hq))

theorem unmarks_unmarkLongTop (i : Nat) : s.Unmarks (s.unmarkLongTop i) :=
  unmarks_field s (fun _ => rfl) .clearLongTop fun _ hq => FrameStore.mem_held (Or.inr (Or.inl hq))

theorem unmarks_unmarkLongBottom (i : Nat) : s.Unmarks (s.unmarkLongBottom i) :=
  unmarks_field s (fun _ => rfl) .clearLongBottom
    fun _ hq => FrameStore.mem_held (Or.inr (Or.inr hq))

theorem unmarks_unmarkShortFrame (picNumX : Int) (stores : List Nat) :
    s.Unmarks (s.unmarkShortFrame picNumX stores) := by
  induction stores with
  | nil => exact .refl s
  | cons i rest ih => exact .ite (unmarks_unmarkForReference s i) ih

theorem unmarks_unmarkShortField (picNumX : Int) (stores : List Nat) :
    s.Unmarks (s.unmarkShortField picNumX stores) := by
  induction stores with
  | nil => exact .refl s
  | cons i rest ih =>
    exact .ite (unmarks_unmarkTop s i) (.ite (unmarks_unmarkBottom s i) ih)

theorem unmarks_unmarkLongField (longTermPicNum : Int) (stores : List Nat) :
    s.Unmarks (s.unmarkLongField longTermPicNum stores) := by
  induction stores with
  | nil => exact .refl s
  | cons i rest ih =>
    exact .ite (unmarks_unmarkLongTop s i) (.ite (unmarks_unmarkLongBottom s i) ih)

theorem unmarks_unmarkLong_if (c : Prop) [Decidable c] (i : Nat) :
    s.Unmarks (if c then s.unmarkForLongTermReference i else s) :=
  .ite (unmarks_unmarkForLongTermReference s i) (.refl s)

theorem unmarks_mmUnmarkShort (p : Nat) (d : Int) :
    s.Unmarks (s.mmUnmarkShortTermForReference p d) :=
  .ite (unmarks_unmarkShortFrame s _ _) (unmarks_unmarkShortField s _ _)

theorem unmarks_mmUnmarkLong (p : Nat) (n : Int) :
    s.Unmarks (s.mmUnmarkLongTermForReference p n) :=
  .ite (Unmarks.foldl (fun s _ => unmarks_unmarkLong_if s _ _) s.fsLtref s)
    (unmarks_unmarkLongField s _ _)

theorem unmarks_unmarkLongFrameByIdx (k : Int) :
    s.Unmarks (s.unmarkLongTermFrameForReferenceByFrameIdx k) :=
  .foldl (fun s _ => unmarks_unmarkLong_if s _ _) s.fsLtref s

theorem unmarks_unmark3Top (currPicNum : Int) (markCurrent : Bool) (i : Nat) :
    s.Unmarks (s.unmark3Top currPicNum markCurrent i) :=
  .ite (unmarks_unmarkForLongTermReference s i) (.ite (unmarks_unmarkForLongTermReference s i)
    (.ite (unmarks_unmarkLong_if s _ i) (unmarks_unmarkLong_if s _ i)))

theorem unmarks_unmark3Bottom (currPicNum : Int) (markCurrent : Bool) (i : Nat) :
    s.Unmarks (s.unmark3Bottom currPicNum markCurrent i) :=
  .ite (unmarks_unmarkForLongTermReference s i)
    (.ite (unmarks_unmarkLong_if s _ i) (unmarks_unmarkLong_if s _ i))

theorem unmarks_unmarkLongFieldByIdx (t : PictureStructure) (k : Int) (markCurrent : Bool)
    (currPicNum : Int) :
    s.Unmarks (s.unmarkLongTermFieldForReferenceByFrameIdx t k markCurrent currPicNum) := by
  refine .foldl (fun s i => .ite ?_ (.refl s)) s.fsLtref s
  cases t with
  | frame => exact .refl s
  | topField => exact unmarks_unmark3Top s _ _ _
  | bottomField => exact unmarks_unmark3Bottom s _ _ _

theorem unmarks_mmUpdateMax (n : Int) : s.Unmarks (s.mmUpdateMaxLongTermFrameIdx n) := by
  have hmax : s.Unmarks { s with maxLongTermPicIdx := n - 1 } :=
    ⟨fun _ => rfl, fun _ _ => rfl, fun _ _ => rfl, fun _ => .refl _, fun _ => .refl _, fun _ => rfl,
      rfl, rfl⟩
  exact hmax.trans (.foldl (fun s _ => unmarks_unmarkLong_if s _ _) s.fsLtref _)

theorem unmarkForReference_clears (i : Nat) :
    (s.unmarkForReference i).isUsedForReference i = false := by
  have hheld := (unmarks_modifyHeld (f := fun q => { q with usedForReference := false }) s
    (fun _ => rfl) i).2
  have hlast : (s.modifyHeld i fun q => { q with usedForReference := false }).Unmarks
      (s.unmarkForReference i) := by
    refine .modifyStore _ ?_ i
    exact ⟨fun _ => rfl, fun _ => .empty _, fun _ => .refl _, fun _ => rfl⟩
  unfold isUsedForReference
  rw [Bool.or_eq_false_iff]
  refine ⟨?_, ?_⟩
  · unfold unmarkForReference
    rw [modifyStore_stores, if_pos rfl]
    rfl
  · by_contra hn
    rw [hlast.holds (fun _ hq => hq) (Bool.not_eq_false _ ▸ hn)] at hheld
    exact absurd hheld (by decide)

end Functions

/-! ## Marking as long-term -/

/-- From the one state to the other reference pictures of the frame store became long-term
references of the index. -/
structure MarksLong (s t : Dpb) (i : Nat) (k : Int) : Prop where
  shape : ∀ j, (t.stores j).shape = (s.stores j).shape
  pics : ∀ q, q ∉ (s.stores i).shape.held → t.pics q = s.pics q
  usedForReference : ∀ q, (t.pics q).usedForReference = (s.pics q).usedForReference
  isLongTerm : ∀ q, (s.pics q).isLongTerm = true → (t.pics q).isLongTerm = true
  others : ∀ j, j ≠ i → t.stores j = s.stores j
  longTermFrameIdx : (t.stores i).longTermFrameIdx = k
  fsRef : t.fsRef = s.fsRef
  fsLtref : t.fsLtref = s.fsLtref

/-- A change of the pictures of a store on the way there. -/
structure Lengthens (s t : Dpb) (i : Nat) : Prop where
  stores : t.stores = s.stores
  pics : ∀ q, q ∉ (s.stores i).shape.held → t.pics q = s.pics q
  usedForReference : ∀ q, (t.pics q).usedForReference = (s.pics q).usedForReference
  isLongTerm : ∀ q, (s.pics q).isLongTerm = true → (t.pics q).isLongTerm = true
  fsRef : t.fsRef = s.fsRef
  fsLtref : t.fsLtref = s.fsLtref

namespace Lengthens

variable {s t u : Dpb} {i : Nat}

theorem refl (s : Dpb) (i : Nat) : s.Lengthens s i :=
  ⟨rfl, fun _ _ => rfl, fun _ => rfl, fun _ => id, rfl, rfl⟩

theorem trans (h : s.Lengthens t i) (h' : t.Lengthens u i) : s.Lengthens u i where
  stores := h'.stores.trans h.stores
  pics q hq := (h'.pics q (h.stores ▸ hq)).trans (h.pics q hq)
  usedForReference q := (h'.usedForReference q).trans (h.usedForReference q)
  isLongTerm q hq := h'.isLongTerm q (h.isLongTerm q hq)
  fsRef := h'.fsRef.trans h.fsRef
  fsLtref := h'.fsLtref.trans h.fsLtref

theorem ite {c : Prop} [Decidable c] (h : s.Lengthens t i) (h' : s.Lengthens u i) :
    s.Lengthens (if c then t else u) i := by
  split
  · exact h
  · exact h'

theorem modifyPic (s : Dpb) {f : StorablePicture → StorablePicture}
    (h : ∀ q, (f q).usedForReference = q.usedForReference ∧ (f q).isLongTerm = true) {p : Option Nat}
    (hp : ∀ q, p = some q → q ∈ (s.stores i).shape.held) : s.Lengthens (s.modifyPic p f) i := by
  refine ⟨modifyPic_stores s p f, fun q hq => ?_,
    fun q => modifyPic_read s StorablePicture.usedForReference (fun q => (h q).1) p q,
    fun q hq => ?_, by cases p <;> rfl, by cases p <;> rfl⟩
  · cases p with
    | none => rfl
    | some p =>
      rw [modifyPic_pics, if_neg]
      exact fun hqp => hq (hqp ▸ hp p rfl)
  · cases p with
    | none => exact hq
    | some p =>
      rw [modifyPic_pics]
      split
      · exact (h _).2
      · exact hq

end Lengthens

theorem MarksLong.of_store {s t u : Dpb} {i : Nat} {k : Int} {f : FrameStore → FrameStore}
    (h : s.Lengthens t i) (h' : (t.modifyStore i f).Lengthens u i)
    (hf : ∀ fs, (f fs).shape = fs.shape ∧ (f fs).longTermFrameIdx = k) : s.MarksLong u i k := by
  have hshape (j : Nat) : ((t.modifyStore i f).stores j).shape = (s.stores j).shape := by
    rw [← h.stores]
    exact modifyStore_read t FrameStore.shape (fun fs => (hf fs).1) i j
  refine ⟨fun j => ?_, fun q hq => ?_, fun q => ?_, fun q hq => ?_, fun j hj => ?_, ?_,
    h'.fsRef.trans h.fsRef, h'.fsLtref.trans h.fsLtref⟩
  · rw [h'.stores, hshape]
  · exact (h'.pics q (by rwa [hshape])).trans (h.pics q hq)
  · exact (h'.usedForReference q).trans (h.usedForReference q)
  · exact h'.isLongTerm q (h.isLongTerm q hq)
  · rw [h'.stores, modifyStore_stores, if_neg hj, h.stores]
  · rw [h'.stores, modifyStore_stores, if_pos rfl]
    exact (hf _).2

section Marking

variable (s : Dpb)

theorem marksLong_markFrameLongTerm (i : Nat) (k : Int) :
    s.MarksLong (s.markFrameLongTerm i k) i k := by
  let mark (q : StorablePicture) : StorablePicture := { q with
    longTermFrameIdx := k
    longTermPicNum := k
    isLongTerm := true }
  have hmark (q : StorablePicture) :
      (mark q).usedForReference = q.usedForReference ∧ (mark q).isLongTerm = true := ⟨rfl, rfl⟩
  have h1 : s.Lengthens (s.modifyPic (s.stores i).frame mark) i :=
    .modifyPic s hmark fun _ hq => FrameStore.mem_held (Or.inl hq)
  have h2 (t : Dpb) : t.Lengthens (if (t.stores i).topField.isSome ∧ (t.stores i).bottomField.isSome
      then (t.modifyPic (t.stores i).topField mark).modifyPic (t.stores i).bottomField mark
      else t) i := by
    refine .ite ((Lengthens.modifyPic t hmark fun _ hq =>
      FrameStore.mem_held (Or.inr (Or.inl hq))).trans (.modifyPic _ hmark fun q hq => ?_)) (.refl t i)
    rw [modifyPic_stores]
    exact FrameStore.mem_held (Or.inr (Or.inr hq))
  unfold markFrameLongTerm
  refine .of_store (h1.trans (h2 _)) (.refl _ i) ?_
  exact fun _ => ⟨rfl, rfl⟩

theorem marksLong_markFieldLongTerm (i : Nat) (parity : PictureStructure) {field : Option Nat}
    (k add : Int) (hfield : ∀ q, field = some q → q ∈ (s.stores i).shape.held) :
    s.MarksLong (s.markFieldLongTerm i parity field k add) i k := by
  have h1 : s.Lengthens (s.modifyPic field fun q => { q with
      longTermFrameIdx := k
      longTermPicNum := 2 * k + add
      isLongTerm := true }) i := by
    apply Lengthens.modifyPic
    · exact fun _ => ⟨rfl, rfl⟩
    · exact hfield
  have h2 (t : Dpb) : t.Lengthens (if (t.stores i).isLongTerm = .both then
      t.modifyPic (t.stores i).frame fun q => { q with
        isLongTerm := true
        longTermFrameIdx := k
        longTermPicNum := k }
      else t) i := by
    refine .ite ?_ (.refl t i)
    apply Lengthens.modifyPic
    · exact fun _ => ⟨rfl, rfl⟩
    · exact fun _ hq => FrameStore.mem_held (Or.inl hq)
  unfold markFieldLongTerm
  refine .of_store h1 (h2 _) ?_
  exact fun _ => ⟨rfl, rfl⟩

/-- The frame store has the short-term frame `mark_pic_long_term` looks for. -/
def shortFrameIs (picNumX : Int) (i : Nat) : Bool :=
  (s.stores i).isReference = .both && (s.stores i).frame.isSome &&
    !(s.pic (s.stores i).frame).isLongTerm && (s.pic (s.stores i).frame).picNum = picNumX

/-- It has the short-term field looked for. -/
def eitherFieldIs (picNumX : Int) (i : Nat) : Bool :=
  let fs := s.stores i
  s.shortFieldIs fs.isReference.top fs.topField picNumX ||
    (!(fs.isReference.top && fs.topField.isNone) &&
      s.shortFieldIs fs.isReference.bottom fs.bottomField picNumX)

def shortPictureIs (p : Nat) (picNumX : Int) (i : Nat) : Bool :=
  if (s.pics p).picStructure = .frame then s.shortFrameIs picNumX i
  else s.eitherFieldIs picNumX i

/-- A frame is marked at most in one store of the list, which has it. -/
theorem markLongFrame_cases (k picNumX : Int) (stores : List Nat) :
    s.markLongFrame k picNumX stores = s ∨
      ∃ i ∈ stores, s.shortFrameIs picNumX i = true ∧
        s.MarksLong (s.markLongFrame k picNumX stores) i k := by
  induction stores with
  | nil => exact Or.inl rfl
  | cons i rest ih =>
    unfold markLongFrame
    split
    · next hi =>
      refine Or.inr ⟨i, List.mem_cons_self, ?_, marksLong_markFrameLongTerm s i k⟩
      simpa [shortFrameIs, and_assoc] using hi
    · rcases ih with h | ⟨j, hj, h⟩
      · exact Or.inl h
      · exact Or.inr ⟨j, List.mem_cons_of_mem i hj, h⟩

theorem markLongField_cases (k picNumX addTop addBottom : Int) (stores : List Nat) :
    s.markLongField k picNumX addTop addBottom stores = s ∨
      ∃ i ∈ stores, s.eitherFieldIs picNumX i = true ∧
        s.MarksLong (s.markLongField k picNumX addTop addBottom stores) i k := by
  induction stores with
  | nil => exact Or.inl rfl
  | cons i rest ih =>
    unfold markLongField
    dsimp only
    split
    · next htop =>
      exact Or.inr ⟨i, List.mem_cons_self, Bool.or_eq_true_iff.mpr (Or.inl htop),
        marksLong_markFieldLongTerm s i .topField k addTop
          fun _ hq => FrameStore.mem_held (Or.inr (Or.inl hq))⟩
    · split
      · next hbottom =>
        exact Or.inr ⟨i, List.mem_cons_self, Bool.or_eq_true_iff.mpr (Or.inr hbottom),
          marksLong_markFieldLongTerm s i .bottomField k addBottom
            fun _ hq => FrameStore.mem_held (Or.inr (Or.inr hq))⟩
      · rcases ih with h | ⟨j, hj, h⟩
        · exact Or.inl h
        · exact Or.inr ⟨j, List.mem_cons_of_mem i hj, h⟩

/-- The picture marked as long-term lies in a store of `fs_ref` that has it. -/
theorem markPicLongTerm_cases (p : Nat) (k picNumX : Int) :
    s.markPicLongTerm p k picNumX = s ∨
      ∃ i ∈ s.fsRef, s.shortPictureIs p picNumX i = true ∧
        s.MarksLong (s.markPicLongTerm p k picNumX) i k := by
  unfold markPicLongTerm shortPictureIs
  cases (s.pics p).picStructure with
  | frame => exact markLongFrame_cases s k picNumX s.fsRef
  | topField => exact markLongField_cases s k picNumX 1 0 s.fsRef
  | bottomField => exact markLongField_cases s k picNumX 0 1 s.fsRef

end Marking

end Dpb

end MediaModules.H264Dpb
