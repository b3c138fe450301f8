import MediaModules.Lib.Run
import Mathlib.Data.List.FinRange
import Mathlib.Logic.Function.Basic
import Mathlib.Algebra.Order.Ring.Int

/-!
# The slots of compressed frame buffers

`aml_buf_fbc_init` and `aml_buf_fbc_release`. A manager has an array of slots; a buffer refers to the
slot that was claimed for it. The slot is claimed before its headers are allocated.
-/
namespace MediaModules.Fbc

open MediaModules.Lib.Run

/-- `BUF_FBC_NUM_MAX`. -/
abbrev bufFbcNumMax : Nat := 64

def EINVAL : Int := -22

def ENOMEM : Int := -12

theorem EINVAL_ne : EINVAL ≠ 0 := by decide

theorem ENOMEM_ne : ENOMEM ≠ 0 := by decide

/-- A set of boxes, and whether each of them exists. -/
structure Boxes where
  mmu : Bool := false
  mmu1 : Bool := false
  bmmu : Bool := false
deriving DecidableEq, Repr

/-- `struct aml_buf_fbc`. The boxes for double write are a set of their own. -/
structure AmlBufFbc where
  index : Nat := 0
  boxes : Boxes := {}
  boxesDw : Boxes := {}
  ref : Int := 0
  haddr : Nat := 0
  hsize : Nat := 0
  haddrDw : Nat := 0
  hsizeDw : Nat := 0
  frameSize : Nat := 0
  used : Nat → Int := fun _ => 0

abbrev FbcArray := Fin bufFbcNumMax → AmlBufFbc

/-- What the functions use of `struct aml_buf_mgr_s`, and the `fbc` pointer of every buffer. -/
structure Mgr where
  boxes : Boxes := {}
  boxesDw : Boxes := {}
  fbcArray : Option FbcArray := none
  fbc : Nat → Option (Fin bufFbcNumMax) := fun _ => none

/-- What the allocators and the decoder answer to one `aml_buf_fbc_init`: the boxes that can be had, the
double write mode (`none` if it cannot be read), the sizes, and the addresses of the headers. -/
structure Answers where
  vzalloc : Bool
  box : Boxes
  dwMode : Option Bool
  boxDw : Boxes
  headerSize : Nat
  frameSize : Nat
  header : Option Nat
  headerDw : Option Nat
deriving DecidableEq, Repr

/-- `aml_buf_box_alloc`: whether it succeeds, and the boxes after it. -/
def amlBufBoxAlloc (front : Bool) (b avail : Boxes) : Bool × Boxes :=
  if avail.mmu = false then (false, { b with mmu := false })
  else if front = true ∧ avail.mmu1 = false then (false, { b with mmu := false, mmu1 := false })
  else if avail.bmmu = false then (false, ⟨false, false, false⟩)
  else (true, ⟨true, front || b.mmu1, true⟩)

/-- `aml_buf_box_init`. -/
def amlBufBoxInit (front : Bool) (s : Mgr) (e : Answers) : Int × Mgr :=
  if s.boxes.mmu = false ∨ s.boxes.bmmu = false then
    if e.vzalloc = false then (ENOMEM, { s with fbcArray := none })
    else
      match amlBufBoxAlloc front s.boxes e.box with
      | (false, b) => (EINVAL, { s with boxes := b, fbcArray := none })
      | (true, b) => initDw { s with boxes := b, fbcArray := some fun _ => {} }
  else initDw s
where
  /-- The boxes for double write, if the mode asks for them. -/
  initDw (s : Mgr) : Int × Mgr :=
    if s.boxesDw.mmu = false ∨ s.boxesDw.bmmu = false then
      match e.dwMode with
      | none => (EINVAL, s)
      | some false => (0, s)
      | some true =>
        match amlBufBoxAlloc front s.boxesDw e.boxDw with
        | (false, b) => (EINVAL, { s with boxesDw := b })
        | (true, b) => (0, { s with boxesDw := b })
    else (0, s)

/-- The first slot that is not referenced. -/
def freeSlot (a : FbcArray) : Option (Fin bufFbcNumMax) :=
  (List.finRange bufFbcNumMax).find? fun i => (a i).ref = 0

/-- The slot as it is before its headers are allocated. -/
def claimed (s : Mgr) (a : FbcArray) (i : Fin bufFbcNumMax) (e : Answers) : AmlBufFbc :=
  { a i with
    index := i
    hsize := e.headerSize
    hsizeDw := e.headerSize
    frameSize := e.frameSize
    boxes := s.boxes
    boxesDw := s.boxesDw
    used := Function.update (a i).used i 0
    ref := 1 }

/-- `aml_buf_fbc_init`: the return value and the manager. -/
def amlBufFbcInit (front : Bool) (s : Mgr) (buf : Nat) (e : Answers) : Option (Int × Mgr) :=
  match amlBufBoxInit front s e with
  | (ret, s) =>
    if ret ≠ 0 then some (EINVAL, s)
    else
      match s.fbcArray with
      | none => none
      | some a =>
        match freeSlot a with
        | none => some (EINVAL, s)
        | some i =>
          let fbc := claimed s a i e
          match e.header with
          | none => some (ENOMEM, { s with fbcArray := some (Function.update a i fbc) })
          | some haddr =>
            let fbc := { fbc with haddr := haddr }
            if s.boxesDw.bmmu then
              match e.headerDw with
              | none => some (ENOMEM, { s with fbcArray := some (Function.update a i fbc) })
              | some haddrDw =>
                let fbc := { fbc with haddrDw := haddrDw }
                some (0, { s with
                  fbcArray := some (Function.update a i fbc)
                  fbc := Function.update s.fbc buf (some i) })
            else
              some (0, { s with
                fbcArray := some (Function.update a i fbc)
                fbc := Function.update s.fbc buf (some i) })

/-- Which of the boxes free the index of the slot. The last one is not asked for its answer. -/
structure Freed where
  bmmu : Bool
  mmu : Bool
  mmu1 : Bool
  mmuDw : Bool
  mmuDw1 : Bool
deriving DecidableEq, Repr

/-- `aml_buf_fbc_release`. The buffer has a slot, else a null pointer is read. -/
def amlBufFbcRelease (front : Bool) (s : Mgr) (buf : Nat) (f : Freed) : Option (Int × Mgr) :=
  match s.fbc buf, s.fbcArray with
  | some i, some a =>
    if f.bmmu = false then some (ENOMEM, s)
    else if f.mmu = false then some (ENOMEM, s)
    else if front = true ∧ f.mmu1 = false then some (ENOMEM, s)
    else if s.boxesDw.mmu = true ∧ f.mmuDw = false then some (ENOMEM, s)
    else if (front = true ∧ s.boxesDw.mmu1 = true) ∧ f.mmuDw1 = false then some (ENOMEM, s)
    else
      let fbc := { a i with used := Function.update (a i).used (a i).index 0, ref := 0 }
      some (0, { s with
        fbcArray := some (Function.update a i fbc)
        fbc := Function.update s.fbc buf none })
  | _, _ => none

inductive Op
  | init (buf : Nat) (e : Answers)
  | release (buf : Nat) (f : Freed)
deriving DecidableEq, Repr

def step (front : Bool) (s : Mgr) : Op → Option Mgr
  | .init buf e => (amlBufFbcInit front s buf e).map (·.2)
  | .release buf f => (amlBufFbcRelease front s buf f).map (·.2)

/-! ## The boxes -/

/-- A slot, all zero as long as there is no array. -/
def Mgr.slot (s : Mgr) (i : Fin bufFbcNumMax) : AmlBufFbc :=
  match s.fbcArray with
  | some a => a i
  | none => {}

/-- There is an array exactly when the boxes exist. -/
def Ready (s : Mgr) : Prop := (s.boxes.mmu = true ∧ s.boxes.bmmu = true) ↔ s.fbcArray.isSome = true

theorem boxAlloc_fails {front : Bool} {b avail b' : Boxes}
    (h : amlBufBoxAlloc front b avail = (false, b')) : b'.mmu = false := by
  simp only [amlBufBoxAlloc] at h
  split at h
  · rw [← (Prod.mk.inj h).2]
  · split at h
    · rw [← (Prod.mk.inj h).2]
    · split at h
      · rw [← (Prod.mk.inj h).2]
      · cases (Prod.mk.inj h).1

theorem boxAlloc_succeeds {front : Bool} {b avail b' : Boxes}
    (h : amlBufBoxAlloc front b avail = (true, b')) : b'.mmu = true ∧ b'.bmmu = true := by
  simp only [amlBufBoxAlloc] at h
  split at h
  · cases (Prod.mk.inj h).1
  · split at h
    · cases (Prod.mk.inj h).1
    · split at h
      · cases (Prod.mk.inj h).1
      · rw [← (Prod.mk.inj h).2]
        exact ⟨rfl, rfl⟩

/-- The part for double write changes the boxes of double write only. -/
theorem initDw_eq (front : Bool) (e : Answers) (s : Mgr) :
    ∃ ret b, amlBufBoxInit.initDw front e s = (ret, { s with boxesDw := b }) := by
  rw [amlBufBoxInit.initDw]
  split
  · split
    · exact ⟨_, s.boxesDw, rfl⟩
    · exact ⟨_, s.boxesDw, rfl⟩
    · split
      · exact ⟨_, _, rfl⟩
      · exact ⟨_, _, rfl⟩
  · exact ⟨_, s.boxesDw, rfl⟩

/-- The boxes are made without touching a slot or a buffer. -/
structure BoxesMade (s s' : Mgr) (ret : Int) : Prop where
  ready : Ready s'
  fbc : s'.fbc = s.fbc
  slot : ∀ i, s'.slot i = s.slot i
  array : ret = 0 → s'.fbcArray.isSome = true

theorem boxInit_made {front : Bool} {s : Mgr} (h : Ready s) (e : Answers) :
    BoxesMade s (amlBufBoxInit front s e).2 (amlBufBoxInit front s e).1 := by
  rw [amlBufBoxInit]
  by_cases hbox : s.boxes.mmu = false ∨ s.boxes.bmmu = false
  · rw [if_pos hbox]
    have hnone : s.fbcArray = none := by
      rw [← Option.not_isSome_iff_eq_none, ← (show _ ↔ _ from h)]
      rintro ⟨hmmu, hbmmu⟩
      rcases hbox with hbox | hbox <;> simp_all
    have hslot (a : FbcArray) (ha : a = fun _ => {}) (b b' : Boxes) (i : Fin bufFbcNumMax) :
        Mgr.slot { s with boxes := b, boxesDw := b', fbcArray := some a } i = s.slot i := by
      simp only [Mgr.slot, hnone, ha]
    have hempty (b : Boxes) (i : Fin bufFbcNumMax) :
        Mgr.slot { s with boxes := b, fbcArray := none } i = s.slot i := by
      simp only [Mgr.slot, hnone]
    by_cases hmem : e.vzalloc = false
    · rw [if_pos hmem]
      refine ⟨?_, rfl, hempty s.boxes, fun h0 => absurd h0 ENOMEM_ne⟩
      rw [Ready] at h ⊢
      rw [h, hnone]
    · rw [if_neg hmem]
      cases halloc : amlBufBoxAlloc front s.boxes e.box with
      | mk ok b =>
        cases ok with
        | false =>
          have hb := boxAlloc_fails halloc
          refine ⟨?_, rfl, hempty b, fun h0 => absurd h0 EINVAL_ne⟩
          simp [Ready, hb]
        | true =>
          have hb := boxAlloc_succeeds halloc
          obtain ⟨ret, b', hdw⟩ :=
            initDw_eq front e { s with boxes := b, fbcArray := some fun _ => {} }
          simp only [hdw]
          refine ⟨?_, rfl, hslot _ rfl b b', fun _ => rfl⟩
          simp [Ready, hb]
  · rw [if_neg hbox]
    obtain ⟨ret, b', hdw⟩ := initDw_eq front e s
    rw [hdw]
    refine ⟨h, rfl, fun _ => rfl, fun _ => h.mp ?_⟩
    simpa using hbox

/-! ## One call -/

/-- A slot is claimed: the boxes are there and a slot is free. -/
def Claims (front : Bool) (s : Mgr) (e : Answers) : Prop :=
  (amlBufBoxInit front s e).1 = 0 ∧ ∃ a i, (amlBufBoxInit front s e).2.fbcArray = some a ∧
    freeSlot a = some i

/-- The headers of a claimed slot can be had, the second one where there are boxes for double write. -/
def HeadersGranted (front : Bool) (s : Mgr) (e : Answers) : Prop :=
  e.header.isSome = true ∧
    ((amlBufBoxInit front s e).2.boxesDw.bmmu = true → e.headerDw.isSome = true)

/-- How a call of `aml_buf_fbc_init` ends. -/
inductive InitEnds (front : Bool) (s : Mgr) (buf : Nat) (e : Answers) (ret : Int) (s' : Mgr) : Prop
  | unclaimed : ¬ Claims front s e → ret ≠ 0 → s' = (amlBufBoxInit front s e).2 →
      InitEnds front s buf e ret s'
  | leaked (a : FbcArray) (i : Fin bufFbcNumMax) (slot : AmlBufFbc) :
      Claims front s e → ¬ HeadersGranted front s e → ret ≠ 0 →
      (amlBufBoxInit front s e).2.fbcArray = some a → (a i).ref = 0 → slot.ref ≠ 0 →
      s' = { (amlBufBoxInit front s e).2 with fbcArray := some (Function.update a i slot) } →
      InitEnds front s buf e ret s'
  | done (a : FbcArray) (i : Fin bufFbcNumMax) (slot : AmlBufFbc) :
      Claims front s e → HeadersGranted front s e → ret = 0 →
      (amlBufBoxInit front s e).2.fbcArray = some a → (a i).ref = 0 → slot.ref ≠ 0 →
      s' = { (amlBufBoxInit front s e).2 with
        fbcArray := some (Function.update a i slot)
        fbc := Function.update (amlBufBoxInit front s e).2.fbc buf (some i) } →
      InitEnds front s buf e ret s'

theorem freeSlot_ref {a : FbcArray} {i : Fin bufFbcNumMax} (h : freeSlot a = some i) :
    (a i).ref = 0 := by
  simpa using List.find?_some h

/-- Every call with the boxes in order ends in one of these ways. -/
theorem fbcInit_ends {front : Bool} {s : Mgr} (h : Ready s) (buf : Nat) (e : Answers) :
    ∃ ret s', amlBufFbcInit front s buf e = some (ret, s') ∧ InitEnds front s buf e ret s' := by
  have hmade := @boxInit_made front s h e
  rw [amlBufFbcInit]
  by_cases hret : (amlBufBoxInit front s e).1 = 0
  · simp only [hret, ne_eq, not_true_eq_false, if_false]
    obtain ⟨a, ha⟩ := Option.isSome_iff_exists.mp (hmade.array hret)
    simp only [ha]
    cases hfree : freeSlot a with
    | none =>
      refine ⟨_, _, rfl, .unclaimed ?_ EINVAL_ne rfl⟩
      rintro ⟨-, a', i, ha', hi⟩
      rw [ha, Option.some.injEq] at ha'
      rw [← ha', hfree] at hi
      cases hi
    | some i =>
      have hclaims : Claims front s e := ⟨hret, a, i, ha, hfree⟩
      have href := freeSlot_ref hfree
      have hone : (1 : Int) ≠ 0 := by decide
      simp only
      cases hheader : e.header with
      | none =>
        have hdenied : ¬ HeadersGranted front s e := fun hg => by
          rw [HeadersGranted, hheader] at hg
          cases hg.1
        exact ⟨_, _, rfl, .leaked a i _ hclaims hdenied ENOMEM_ne ha href hone rfl⟩
      | some haddr =>
        have hsome : e.header.isSome = true := by rw [hheader]; rfl
        by_cases hdw : (amlBufBoxInit front s e).2.boxesDw.bmmu = true
        · simp only [hdw, if_true]
          cases hheaderDw : e.headerDw with
          | none =>
            have hdenied : ¬ HeadersGranted front s e := fun hg => by
              have hdw' := hg.2 hdw
              rw [hheaderDw] at hdw'
              cases hdw'
            exact ⟨_, _, rfl, .leaked a i _ hclaims hdenied ENOMEM_ne ha href hone rfl⟩
          | some haddrDw =>
            have hsomeDw : e.headerDw.isSome = true := by rw [hheaderDw]; rfl
            exact ⟨_, _, rfl, .done a i _ hclaims ⟨hsome, fun _ => hsomeDw⟩ rfl ha href hone rfl⟩
        · simp only [hdw]
          exact ⟨_, _, rfl, .done a i _ hclaims ⟨hsome, fun h => absurd h hdw⟩ rfl ha href hone rfl⟩
  · simp only [hret, ne_eq, not_false_eq_true, if_true]
    exact ⟨_, _, rfl, .unclaimed (fun hc => hret hc.1) EINVAL_ne rfl⟩

theorem slot_update {s : Mgr} {a : FbcArray} (ha : s.fbcArray = some a) (i : Fin bufFbcNumMax)
    (slot : AmlBufFbc) (fbc : Nat → Option (Fin bufFbcNumMax)) (j : Fin bufFbcNumMax) :
    Mgr.slot { s with fbcArray := some (Function.update a i slot), fbc := fbc } j =
      if j = i then slot else s.slot j := by
  simp only [Mgr.slot, ha, Function.update_apply]

/-- How a call of `aml_buf_fbc_release` for a buffer with a slot ends. -/
theorem fbcRelease_ends {front : Bool} {s : Mgr} {buf : Nat} {f : Freed} {ret : Int} {s' : Mgr}
    (h : amlBufFbcRelease front s buf f = some (ret, s')) :
    s' = s ∨ ∃ a i slot, s.fbcArray = some a ∧ s.fbc buf = some i ∧ slot.ref = 0 ∧
      s' = { s with
        fbcArray := some (Function.update a i slot)
        fbc := Function.update s.fbc buf none } := by
  rw [amlBufFbcRelease] at h
  split at h
  · next i a hi ha =>
    split at h
    · exact .inl (Prod.mk.inj (Option.some.inj h)).2.symm
    · split at h
      · exact .inl (Prod.mk.inj (Option.some.inj h)).2.symm
      · split at h
        · exact .inl (Prod.mk.inj (Option.some.inj h)).2.symm
        · split at h
          · exact .inl (Prod.mk.inj (Option.some.inj h)).2.symm
          · split at h
            · exact .inl (Prod.mk.inj (Option.some.inj h)).2.symm
            · exact .inr ⟨a, i, _, ha, hi, rfl, (Prod.mk.inj (Option.some.inj h)).2.symm⟩
  · cases h

/-! ## Runs -/

/-- A slot is referenced exactly when one buffer refers to it. -/
def Tracked (s : Mgr) : Prop := ∀ i, (s.slot i).ref ≠ 0 ↔ ∃! buf, s.fbc buf = some i

/-- `Tracked` with what keeps it: no two buffers refer to one slot. -/
structure Inv (s : Mgr) : Prop where
  ready : Ready s
  held : ∀ i, (s.slot i).ref ≠ 0 ↔ ∃ buf, s.fbc buf = some i
  single : ∀ buf buf' i, s.fbc buf = some i → s.fbc buf' = some i → buf = buf'

theorem Inv.tracked {s : Mgr} (h : Inv s) : Tracked s := by
  intro i
  rw [h.held i]
  constructor
  · rintro ⟨buf, hbuf⟩
    exact ⟨buf, hbuf, fun buf' hbuf' => h.single buf' buf i hbuf' hbuf⟩
  · rintro ⟨buf, hbuf, -⟩
    exact ⟨buf, hbuf⟩

theorem inv_fresh : Inv {} := by
  refine ⟨by simp [Ready], fun i => ?_, fun _ _ _ h => by cases h⟩
  constructor
  · intro h
    exact absurd rfl h
  · rintro ⟨_, h⟩
    cases h

/-- A call that claims a slot is made for a buffer without one, and its headers can be had. -/
def Ok (front : Bool) (s : Mgr) : Op → Prop
  | .init buf e => Claims front s e → s.fbc buf = none ∧ HeadersGranted front s e
  | .release _ _ => True

section Steps

variable {front : Bool} {s s' : Mgr}

theorem step_init {buf : Nat} {e : Answers} (h : Ready s)
    (hstep : step front s (.init buf e) = some s') : ∃ ret, InitEnds front s buf e ret s' := by
  obtain ⟨ret, t, hinit, hends⟩ := fbcInit_ends h buf e
  rw [step, hinit] at hstep
  exact ⟨ret, Option.some.inj hstep ▸ hends⟩

theorem inv_boxInit (h : Inv s) (e : Answers) : Inv (amlBufBoxInit front s e).2 := by
  have hmade := @boxInit_made front s h.ready e
  refine ⟨hmade.ready, fun i => ?_, ?_⟩
  · rw [hmade.slot, hmade.fbc]
    exact h.held i
  · rw [hmade.fbc]
    exact h.single

/-- A free slot goes to a buffer that has none. -/
theorem Inv.take {a : FbcArray} {i : Fin bufFbcNumMax} {slot : AmlBufFbc} {buf : Nat} (h : Inv s)
    (ha : s.fbcArray = some a) (hfree : (a i).ref = 0) (hslot : slot.ref ≠ 0)
    (hbuf : s.fbc buf = none) :
    Inv { s with
      fbcArray := some (Function.update a i slot)
      fbc := Function.update s.fbc buf (some i) } := by
  have hnone : ∀ b, s.fbc b ≠ some i := fun b hb => by
    have href := (h.held i).mpr ⟨b, hb⟩
    rw [Mgr.slot, ha] at href
    exact href hfree
  refine ⟨?_, fun j => ?_, fun b b' j hb hb' => ?_⟩
  · have hready := h.ready
    rw [Ready, ha] at hready
    exact hready
  · rw [slot_update ha]
    by_cases hj : j = i
    · rw [if_pos hj, hj]
      exact ⟨fun _ => ⟨buf, Function.update_self _ _ _⟩, fun _ => hslot⟩
    · rw [if_neg hj, h.held j]
      refine exists_congr fun b => ?_
      dsimp only
      by_cases hb : b = buf
      · simp [hb, hbuf, Ne.symm hj]
      · rw [Function.update_of_ne hb]
  · dsimp only at hb hb'
    by_cases hbb : b = buf
    · by_cases hbb' : b' = buf
      · rw [hbb, hbb']
      · rw [hbb, Function.update_self] at hb
        rw [Function.update_of_ne hbb', ← hb] at hb'
        exact absurd hb' (hnone b')
    · rw [Function.update_of_ne hbb] at hb
      by_cases hbb' : b' = buf
      · rw [hbb', Function.update_self] at hb'
        rw [← hb'] at hb
        exact absurd hb (hnone b)
      · rw [Function.update_of_ne hbb'] at hb'
        exact h.single b b' j hb hb'

theorem Inv.give {a : FbcArray} {i : Fin bufFbcNumMax} {slot : AmlBufFbc} {buf : Nat} (h : Inv s)
    (ha : s.fbcArray = some a) (hi : s.fbc buf = some i) (hslot : slot.ref = 0) :
    Inv { s with
      fbcArray := some (Function.update a i slot)
      fbc := Function.update s.fbc buf none } := by
  have hother (b : Nat) (j : Fin bufFbcNumMax) (hb : Function.update s.fbc buf none b = some j) :
      b ≠ buf ∧ s.fbc b = some j := by
    by_cases hbb : b = buf
    · rw [hbb, Function.update_self] at hb
      cases hb
    · rw [Function.update_of_ne hbb] at hb
      exact ⟨hbb, hb⟩
  refine ⟨?_, fun j => ?_, fun b b' j hb hb' => ?_⟩
  · have hready := h.ready
    rw [Ready, ha] at hready
    exact hready
  · rw [slot_update ha]
    by_cases hj : j = i
    · rw [if_pos hj, hj]
      constructor
      · intro href
        exact absurd hslot href
      · rintro ⟨b, hb⟩
        obtain ⟨hne, hb⟩ := hother b i hb
        exact absurd (h.single b buf i hb hi) hne
    · rw [if_neg hj, h.held j]
      refine exists_congr fun b => ?_
      dsimp only
      by_cases hb : b = buf
      · simp [hb, hi, Ne.symm hj]
      · rw [Function.update_of_ne hb]
  · exact h.single b b' j (hother b j hb).2 (hother b' j hb').2

theorem inv_step (op : Op) (h : Inv s) (hok : Ok front s op) (hstep : step front s op = some s') :
    Inv s' := by
  cases op with
  | init buf e =>
    obtain ⟨ret, hends⟩ := step_init h.ready hstep
    have h1 := @inv_boxInit front s h e
    cases hends with
    | unclaimed _ _ hs' => exact hs' ▸ h1
    | leaked a i slot hclaims hdenied => exact absurd (hok hclaims).2 hdenied
    | done a i slot hclaims _ _ ha hfree hslot hs' =>
      have hbuf : (amlBufBoxInit front s e).2.fbc buf = none := by
        rw [(@boxInit_made front s h.ready e).fbc]
        exact (hok hclaims).1
      exact hs' ▸ h1.take ha hfree hslot hbuf
  | release buf f =>
    rw [step] at hstep
    obtain ⟨⟨ret, t⟩, hrel, rfl⟩ := Option.map_eq_some_iff.mp hstep
    obtain rfl | ⟨a, i, slot, ha, hi, hslot, rfl⟩ := fbcRelease_ends hrel
    · exact h
    · exact h.give ha hi hslot

/-- A claimed slot whose headers are denied, and the slot that a buffer had before, are referenced by
nobody. -/
theorem not_tracked_step (op : Op) (h : Inv s) (hok : ¬ Ok front s op) :
    ∃ s', step front s op = some s' ∧ ¬ Tracked s' := by
  cases op with
  | init buf e =>
    rw [Ok, Classical.not_imp] at hok
    obtain ⟨hclaims, hbad⟩ := hok
    obtain ⟨ret, s', hinit, hends⟩ := @fbcInit_ends front s h.ready buf e
    have h1 := @inv_boxInit front s h e
    refine ⟨s', by rw [step, hinit]; rfl, fun htracked => ?_⟩
    cases hends with
    | unclaimed hnot => exact hnot hclaims
    | leaked a i slot _ _ _ ha hfree hslot hs' =>
      subst hs'
      have hi := htracked i
      rw [slot_update ha, if_pos rfl] at hi
      obtain ⟨b, hb, -⟩ := hi.mp hslot
      have href := (h1.held i).mpr ⟨b, hb⟩
      rw [Mgr.slot, ha] at href
      exact href hfree
    | done a i slot _ hgranted _ ha hfree hslot hs' =>
      subst hs'
      cases hj : (amlBufBoxInit front s e).2.fbc buf with
      | none =>
        rw [(@boxInit_made front s h.ready e).fbc] at hj
        exact hbad ⟨hj, hgranted⟩
      | some j =>
        have href := (h1.held j).mpr ⟨buf, hj⟩
        have hne : j ≠ i := by
          rintro rfl
          rw [Mgr.slot, ha] at href
          exact href hfree
        have hi := htracked j
        rw [slot_update ha, if_neg hne] at hi
        obtain ⟨b, hb, -⟩ := hi.mp href
        dsimp only at hb
        by_cases hbb : b = buf
        · rw [hbb, Function.update_self, Option.some.injEq] at hb
          exact hne hb.symm
        · rw [Function.update_of_ne hbb] at hb
          exact hbb (h1.single b buf j hb hj)
  | release buf f => exact absurd trivial hok

theorem Ready.step (op : Op) (h : Ready s) (hstep : step front s op = some s') : Ready s' := by
  cases op with
  | init buf e =>
    obtain ⟨ret, hends⟩ := step_init h hstep
    have hready := (@boxInit_made front s h e).ready
    cases hends with
    | unclaimed _ _ hs' => exact hs' ▸ hready
    | leaked a i slot _ _ _ ha _ _ hs' =>
      rw [Ready, ha] at hready
      exact hs' ▸ hready
    | done a i slot _ _ _ ha _ _ hs' =>
      rw [Ready, ha] at hready
      exact hs' ▸ hready
  | release buf f =>
    rw [Fbc.step] at hstep
    obtain ⟨⟨ret, t⟩, hrel, rfl⟩ := Option.map_eq_some_iff.mp hstep
    obtain rfl | ⟨a, i, slot, ha, hi, hslot, rfl⟩ := fbcRelease_ends hrel
    · exact h
    · rw [Ready, ha] at h
      exact h

/-- A failed claim leaves the slots as they were exactly when no slot was claimed. -/
theorem failed_keeps_iff {buf : Nat} {e : Answers} {ret : Int} (h : Ready s)
    (hinit : amlBufFbcInit front s buf e = some (ret, s')) (hret : ret ≠ 0) :
    (∀ i, s'.slot i = s.slot i) ↔ ¬ Claims front s e := by
  obtain ⟨ret', t, hinit', hends⟩ := @fbcInit_ends front s h buf e
  obtain ⟨rfl, rfl⟩ := Prod.mk.inj (Option.some.inj (hinit.symm.trans hinit'))
  have hmade := @boxInit_made front s h e
  cases hends with
  | unclaimed hnot _ hs' => exact ⟨fun _ => hnot, fun _ i => hs' ▸ hmade.slot i⟩
  | leaked a i slot hclaims _ _ ha hfree hslot hs' =>
    refine ⟨fun hkept => ?_, fun hnot => absurd hclaims hnot⟩
    have hi := hkept i
    rw [hs', slot_update ha, if_pos rfl, ← hmade.slot i, Mgr.slot, ha] at hi
    rw [hi] at hslot
    exact absurd hfree hslot
  | done _ _ _ _ _ h0 => exact absurd h0 hret

end Steps

/-- In a run the slots are tracked all along exactly when every claimed slot goes, with its headers, to a
buffer without a slot; and a failed call leaves the slots alone exactly when it claimed none. -/
theorem slots_tracked_iff (front : Bool) (ops : List Op) :
    (Always (step front) Tracked {} ops ↔ Guarded (step front) (Ok front) {} ops) ∧
      ∀ s, Reaches (step front) {} s → ∀ buf e ret s',
        amlBufFbcInit front s buf e = some (ret, s') → ret ≠ 0 →
          ((∀ i, s'.slot i = s.slot i) ↔ ¬ Claims front s e) := by
  constructor
  · exact always_iff_guarded_total (fun _ h => h.tracked)
      (fun _ op _ h hok hstep => inv_step op h hok hstep)
      (fun _ op h hok => not_tracked_step op h hok) inv_fresh
  · intro s hs buf e ret s' hinit hret
    exact failed_keeps_iff (reaches_invariant (fun _ op _ h hstep => h.step op hstep) inv_fresh.ready hs)
      hinit hret

/-- The boxes without double write, and a header or none. -/
def headerOnly (header : Option Nat) : Answers :=
  ⟨true, ⟨true, true, true⟩, some false, {}, 0x1000, 0x100000, header, none⟩

/-- The boxes with double write, and both headers. -/
def bothHeaders : Answers :=
  ⟨true, ⟨true, true, true⟩, some true, ⟨true, true, true⟩, 0x1000, 0x100000, some 0x8000, some 0x9000⟩

/-- Three buffers, of which the third gets the slot that the first one gave back; a release that does
not free an index comes in between. -/
def threeBuffers : List Op :=
  [.init 0 bothHeaders, .init 1 bothHeaders, .release 1 ⟨true, false, true, true, true⟩,
    .release 0 ⟨true, true, true, true, true⟩, .init 2 bothHeaders]

instance (s : Mgr) (e : Answers) : Decidable (HeadersGranted true s e) :=
  inferInstanceAs (Decidable (_ ∧ _))

theorem slots_tracked_iff_threeBuffers :
    Always (step true) Tracked {} threeBuffers ∧
      ((run (step true) {} threeBuffers).map fun s => (s.fbc 0, s.fbc 1, s.fbc 2)) =
        some (none, some 1, some 0) ∧
      ((∀ i, (Mgr.slot (amlBufBoxInit false {} { headerOnly none with vzalloc := false }).2 i) =
        Mgr.slot {} i) ↔ ¬ Claims false {} { headerOnly none with vzalloc := false }) := by
  refine ⟨(slots_tracked_iff true threeBuffers).1.mpr ?_, by decide +kernel,
    (slots_tracked_iff false []).2 {} ⟨[], rfl⟩ 0 { headerOnly none with vzalloc := false } EINVAL _
      rfl EINVAL_ne⟩
  refine ⟨fun _ => ⟨rfl, by decide⟩, fun t ht => ?_⟩
  obtain rfl := Option.some.inj ht
  refine ⟨fun _ => ⟨by decide +kernel, by decide +kernel⟩, fun t ht => ?_⟩
  obtain rfl := Option.some.inj ht
  refine ⟨trivial, fun t ht => ⟨trivial, fun u hu => ?_⟩⟩
  obtain rfl := Option.some.inj ht
  obtain rfl := Option.some.inj hu
  exact ⟨fun _ => ⟨by decide +kernel, by decide +kernel⟩, fun _ _ => trivial⟩

/-- Without a header the call fails and the slot stays claimed. -/
theorem denied_header_leaks :
    (amlBufFbcInit false {} 0 (headerOnly none)).map (fun r => (r.1, (r.2.slot 0).ref, r.2.fbc 0)) =
        some (ENOMEM, 1, none) ∧
      ¬ Always (step false) Tracked {} [.init 0 (headerOnly none)] := by
  refine ⟨rfl, fun h => ?_⟩
  have hclaims : Claims false {} (headerOnly none) := ⟨by decide, _, 0, rfl, by decide⟩
  have hnot : ¬ Ok false {} (.init 0 (headerOnly none)) := fun hok => by
    cases (hok hclaims).2.1
  obtain ⟨s', hstep, hs'⟩ := not_tracked_step _ inv_fresh hnot
  exact hs' (h.2 s' hstep)

end MediaModules.Fbc
