import MediaModules.H264Dpb.SliceHeader
import MediaModules.Lib.LowBits
import MediaModules.Lib.Run
import MediaModules.Lib.Words

/-!
# Picture order counts of type 0 along a stream

The fields are 32-bit words, and sums may overflow on the way. A stream is a list of slice headers
with the picture order counts that the encoder had in mind.
-/
namespace MediaModules.H264Dpb

open MediaModules.Lib.LowBits
open MediaModules.Lib.Run
open MediaModules.Lib.Words

/-- `PicOrderCntMsb` of type 0, an `int`; `MaxPicOrderCntLsb` is unsigned, and so are the
comparisons with its half. -/
def pocMsbWord (maxLsb prevMsb prevLsb lsb : Int) : Int :=
  if lsb < prevLsb ∧ u32 (prevLsb - lsb) ≥ maxLsb / 2 then s32 (u32 prevMsb + maxLsb)
  else if lsb > prevLsb ∧ u32 (lsb - prevLsb) > maxLsb / 2 then s32 (u32 prevMsb - maxLsb)
  else prevMsb

/-- The POC of the slice, in words. -/
def placePocWord (msb : Int) (sl : Slice) : Slice :=
  let poc := s32 (msb + sl.picOrderCntLsb)
  let bottom := s32 (poc + sl.deltaPicOrderCntBottom)
  let sl := { sl with picOrderCntMsb := msb }
  let sl :=
    if !sl.fieldPicFlag then
      { sl with toppoc := poc, bottompoc := bottom, thisPOC := min poc bottom }
    else if !sl.bottomFieldFlag then { sl with toppoc := poc, thisPOC := poc }
    else { sl with bottompoc := poc, thisPOC := poc }
  { sl with framepoc := sl.thisPOC }

/-- `MaxPicOrderCntLsb`. -/
def maxPocLsb (sps : SPSParameters) : Int := 2 ^ (sps.log2MaxPicOrderCntLsbMinus4 + 4)

/-- `case 0` of `decode_poc`, in words. -/
def decodePoc0Word (sps : SPSParameters) (v : VideoParameters) (sl : Slice) :
    VideoParameters × Slice :=
  let v := choosePrevPoc v sl
  let sl := placePocWord (pocMsbWord (maxPocLsb sps) v.prevPicOrderCntMsb v.prevPicOrderCntLsb
    sl.picOrderCntLsb) sl
  (rememberPoc v sl, sl)

/-- A stream that is being decoded: the parameters, the slice of the last picture with the POC that
was intended for it, and the intended POC of the last reference picture. -/
structure PocRun where
  video : VideoParameters
  slice : Slice
  last : Option (SliceParam × Int)
  reference : Int

/-- The first slice of a picture: `slice_prepare` and `decode_poc`. An IDR picture sets the POC of
the reference picture before to zero. -/
def pocStep (sps : SPSParameters) (s : PocRun) (pic : SliceParam × Int) : Option PocRun :=
  let r := decodePoc0Word sps (Dpb.prepareVideo s.video pic.1 s.last.isSome)
    (Dpb.prepareSlice s.slice pic.1)
  let reference := if pic.1.idrFlag then 0 else s.reference
  some
    { video := r.1
      slice := r.2
      last := some pic
      reference := if pic.1.nalReferenceIdc ≠ 0 then pic.2 else reference }

/-- The picture has the POC that was intended for it. -/
def Assigned (s : PocRun) : Prop :=
  ∀ h p, s.last = some (h, p) →
    match h.picStructure with
    | .frame => s.slice.toppoc = p ∧ s.slice.bottompoc = p + h.deltaPicOrderCntBottom ∧
        s.slice.framepoc = min p (p + h.deltaPicOrderCntBottom)
    | .topField => s.slice.toppoc = p ∧ s.slice.framepoc = p
    | .bottomField => s.slice.bottompoc = p ∧ s.slice.framepoc = p

/-- Values of an `int`. -/
def IntRange (x : Int) : Prop := -2147483648 ≤ x ∧ x < 2147483648

/-- The stream starts with an IDR picture, and each POC is told by its low bits: its distance from
that of the reference picture before is in the range. -/
structure PocTold (range : Int → Int → Prop) (sps : SPSParameters) (s : PocRun)
    (pic : SliceParam × Int) : Prop where
  starts : s.last = none → pic.1.idrFlag = true
  lsb : pic.1.picOrderCntLsb = pic.2 % maxPocLsb sps
  near : range (maxPocLsb sps) (pic.2 - if pic.1.idrFlag then 0 else s.reference)
  value : IntRange pic.2
  bottom : pic.1.picStructure = .frame → IntRange (pic.2 + pic.1.deltaPicOrderCntBottom)

instance (x : Int) : Decidable (IntRange x) := inferInstanceAs (Decidable (_ ∧ _))

instance (range : Int → Int → Prop) [∀ maxLsb d, Decidable (range maxLsb d)] (sps : SPSParameters)
    (s : PocRun) (pic : SliceParam × Int) : Decidable (PocTold range sps s pic) :=
  decidable_of_iff ((s.last = none → pic.1.idrFlag = true) ∧
      pic.1.picOrderCntLsb = pic.2 % maxPocLsb sps ∧
      range (maxPocLsb sps) (pic.2 - if pic.1.idrFlag then 0 else s.reference) ∧ IntRange pic.2 ∧
      (pic.1.picStructure = .frame → IntRange (pic.2 + pic.1.deltaPicOrderCntBottom)))
    ⟨fun ⟨h1, h2, h3, h4, h5⟩ => ⟨h1, h2, h3, h4, h5⟩,
      fun ⟨h1, h2, h3, h4, h5⟩ => ⟨h1, h2, h3, h4, h5⟩⟩

/-- Half of the period upwards, and less than half of it down. -/
def UpHalf (maxLsb d : Int) : Prop := -(maxLsb / 2) < d ∧ d ≤ maxLsb / 2

/-- Half of the period down, and less than half of it upwards. -/
def DownHalf (maxLsb d : Int) : Prop := -(maxLsb / 2) ≤ d ∧ d < maxLsb / 2

instance (maxLsb d : Int) : Decidable (UpHalf maxLsb d) := inferInstanceAs (Decidable (_ ∧ _))

instance (maxLsb d : Int) : Decidable (DownHalf maxLsb d) := inferInstanceAs (Decidable (_ ∧ _))

/-- What is kept of the last reference picture is its intended POC. -/
structure PocKept (sps : SPSParameters) (s : PocRun) : Prop where
  assigned : Assigned s
  lsb : s.last ≠ none → s.video.prevPicOrderCntLsb = s.reference % maxPocLsb sps
  msb : s.last ≠ none →
    s.video.prevPicOrderCntMsb = s32 (s.reference - s.reference % maxPocLsb sps)

section Words
variable {sps : SPSParameters}

theorem s32_of_intRange {x : Int} (h : IntRange x) : s32 x = x := s32_of_range h.1 h.2

theorem s32_add_s32 (x y : Int) : s32 (s32 x + y) = s32 (x + y) := by
  simp only [s32]
  omega

theorem s32_u32_add (x y : Int) : s32 (u32 x + y) = s32 (x + y) := by
  simp only [s32, u32]
  omega

theorem maxPocLsb_pos (sps : SPSParameters) : 0 < maxPocLsb sps := Int.pow_pos (by decide)

/-- The word of the high part is that of the high part in integers. -/
theorem pocMsbWord_eq {prevLsb lsb : Int} (prevMsb : Int) (hprev : IntRange prevLsb)
    (hlsb : IntRange lsb) :
    pocMsbWord (maxPocLsb sps) (s32 prevMsb) prevLsb lsb =
      s32 (highPart (maxPocLsb sps) prevMsb prevLsb lsb) := by
  obtain ⟨hp0, hp1⟩ := hprev
  obtain ⟨hl0, hl1⟩ := hlsb
  generalize maxPocLsb sps = m
  have hdown : (lsb < prevLsb ∧ u32 (prevLsb - lsb) ≥ m / 2) ↔
      (lsb < prevLsb ∧ prevLsb - lsb ≥ m / 2) := by
    apply and_congr_right
    intro hlt
    rw [u32_of_range (by omega) (by omega)]
  have hup : (lsb > prevLsb ∧ u32 (lsb - prevLsb) > m / 2) ↔
      (lsb > prevLsb ∧ lsb - prevLsb > m / 2) := by
    apply and_congr_right
    intro hlt
    rw [u32_of_range (by omega) (by omega)]
  unfold pocMsbWord highPart
  rw [if_congr hdown rfl rfl, if_congr hup rfl rfl, u32_s32]
  split
  · exact s32_u32_add _ _
  · split
    · rw [Int.sub_eq_add_neg, s32_u32_add, ← Int.sub_eq_add_neg]
    · rfl

/-- Low bits are small enough for an `int`. -/
theorem emod_maxPocLsb_range (hlog : sps.log2MaxPicOrderCntLsbMinus4 + 4 < 32) (x : Int) :
    IntRange (x % maxPocLsb sps) := by
  have hmax : maxPocLsb sps ≤ 2147483648 := by
    have hle : 2 ^ (sps.log2MaxPicOrderCntLsbMinus4 + 4) ≤ 2 ^ 31 :=
      Nat.pow_le_pow_right (by decide) (by omega)
    unfold maxPocLsb
    exact_mod_cast hle
  have hnonneg := Int.emod_nonneg x (Int.ne_of_gt (maxPocLsb_pos sps))
  have hlt := Int.emod_lt_of_pos x (maxPocLsb_pos sps)
  exact ⟨by omega, by omega⟩

/-- `decode_poc` gives a picture whose POC is near that of the reference picture before the POC that
was intended for it. -/
theorem pocMsbWord_add (hlog : sps.log2MaxPicOrderCntLsbMinus4 + 4 < 32) {q p : Int}
    (hnear : UpHalf (maxPocLsb sps) (p - q)) (hp : IntRange p) :
    pocMsbWord (maxPocLsb sps) (s32 (q - q % maxPocLsb sps)) (q % maxPocLsb sps)
        (p % maxPocLsb sps) = s32 (p - p % maxPocLsb sps) ∧
      s32 (s32 (p - p % maxPocLsb sps) + p % maxPocLsb sps) = p := by
  constructor
  · rw [pocMsbWord_eq _ (emod_maxPocLsb_range hlog q) (emod_maxPocLsb_range hlog p),
      highPart_eq (maxPocLsb_pos sps) hnear.1 hnear.2]
  · rw [s32_add_s32, Int.sub_add_cancel, s32_of_intRange hp]

/-- While no sum overflows, the words are the integers of `decodePoc0`. -/
theorem decodePoc0Word_of_range {v w : VideoParameters} {sl : Slice} {msb : Int}
    (hw : choosePrevPoc v sl = w)
    (hmsb : pocMsb (maxPocLsb sps) w.prevPicOrderCntMsb w.prevPicOrderCntLsb sl.picOrderCntLsb = msb)
    (hprev : IntRange w.prevPicOrderCntMsb ∧ IntRange w.prevPicOrderCntLsb)
    (hfit : IntRange sl.picOrderCntLsb ∧ IntRange msb) (hpoc : IntRange (msb + sl.picOrderCntLsb))
    (hbottom : IntRange (msb + sl.picOrderCntLsb + sl.deltaPicOrderCntBottom)) :
    decodePoc0Word sps v sl = decodePoc0 sps v sl := by
  have hword := @pocMsbWord_eq sps _ _ w.prevPicOrderCntMsb hprev.2 hfit.1
  have hhigh : highPart (maxPocLsb sps) w.prevPicOrderCntMsb w.prevPicOrderCntLsb
      sl.picOrderCntLsb = msb := hmsb
  have hmax : 2 ^ (sps.log2MaxPicOrderCntLsbMinus4 + 4) = maxPocLsb sps := rfl
  rw [s32_of_intRange hprev.1, hhigh, s32_of_intRange hfit.2] at hword
  simp only [decodePoc0Word, decodePoc0, hw, hmax, hword, hmsb, placePocWord, placePoc,
    s32_of_intRange hpoc, s32_of_intRange hbottom]

end Words

section Steps
variable {sps : SPSParameters} {s t : PocRun} {pic : SliceParam × Int}

/-- An IDR picture forgets the reference picture before, and no picture takes notice of an MMCO 5
before it. -/
theorem choosePrevPoc_prepared (v : VideoParameters) (sl : Slice) (h : SliceParam)
    (firstPicDone : Bool) :
    let v' := choosePrevPoc (Dpb.prepareVideo v h firstPicDone) (Dpb.prepareSlice sl h)
    v'.prevPicOrderCntMsb = (if h.idrFlag then 0 else v.prevPicOrderCntMsb) ∧
      v'.prevPicOrderCntLsb = if h.idrFlag then 0 else v.prevPicOrderCntLsb := by
  unfold choosePrevPoc
  have hidr : (Dpb.prepareSlice sl h).idrFlag = h.idrFlag := rfl
  have hmmco : (Dpb.prepareVideo v h firstPicDone).lastHasMmco5 = false := rfl
  dsimp only
  rw [hidr, hmmco]
  cases h.idrFlag with
  | true => exact ⟨rfl, rfl⟩
  | false => exact ⟨rfl, rfl⟩

theorem placePocWord_assigned {msb p : Int} (sl : Slice) (h : SliceParam)
    (hpoc : s32 (msb + h.picOrderCntLsb) = p)
    (hbottom : h.picStructure = .frame →
      s32 (p + h.deltaPicOrderCntBottom) = p + h.deltaPicOrderCntBottom) :
    let r := placePocWord msb (Dpb.prepareSlice sl h)
    match h.picStructure with
    | .frame => r.toppoc = p ∧ r.bottompoc = p + h.deltaPicOrderCntBottom ∧
        r.framepoc = min p (p + h.deltaPicOrderCntBottom)
    | .topField => r.toppoc = p ∧ r.framepoc = p
    | .bottomField => r.bottompoc = p ∧ r.framepoc = p := by
  have hlsb : (Dpb.prepareSlice sl h).picOrderCntLsb = h.picOrderCntLsb := rfl
  have hdelta : (Dpb.prepareSlice sl h).deltaPicOrderCntBottom = h.deltaPicOrderCntBottom := rfl
  have hfield : (Dpb.prepareSlice sl h).fieldPicFlag = decide (h.picStructure ≠ .frame) := rfl
  have hbot : (Dpb.prepareSlice sl h).bottomFieldFlag = decide (h.picStructure = .bottomField) := rfl
  dsimp only
  unfold placePocWord
  dsimp only
  rw [hlsb, hdelta, hfield, hbot, hpoc]
  cases hstruct : h.picStructure with
  | frame =>
    rw [hbottom hstruct]
    exact ⟨rfl, rfl, rfl⟩
  | topField => exact ⟨rfl, rfl⟩
  | bottomField => exact ⟨rfl, rfl⟩

theorem placePocWord_same (msb : Int) (sl : Slice) :
    (placePocWord msb sl).nalReferenceIdc = sl.nalReferenceIdc ∧
      (placePocWord msb sl).picOrderCntLsb = sl.picOrderCntLsb ∧
      (placePocWord msb sl).picOrderCntMsb = msb := by
  unfold placePocWord
  dsimp only
  split
  · exact ⟨rfl, rfl, rfl⟩
  · split
    · exact ⟨rfl, rfl, rfl⟩
    · exact ⟨rfl, rfl, rfl⟩

theorem rememberPoc_prev (v : VideoParameters) (sl : Slice) :
    (rememberPoc v sl).prevPicOrderCntMsb =
        (if sl.nalReferenceIdc ≠ 0 then sl.picOrderCntMsb else v.prevPicOrderCntMsb) ∧
      (rememberPoc v sl).prevPicOrderCntLsb =
        if sl.nalReferenceIdc ≠ 0 then sl.picOrderCntLsb else v.prevPicOrderCntLsb := by
  unfold rememberPoc
  dsimp only
  split
  · exact ⟨rfl, rfl⟩
  · exact ⟨rfl, rfl⟩

theorem pocStep_kept (hlog : sps.log2MaxPicOrderCntLsbMinus4 + 4 < 32) (h : PocKept sps s)
    (htold : PocTold UpHalf sps s pic) (hs : pocStep sps s pic = some t) : PocKept sps t := by
  obtain ⟨hd, p⟩ := pic
  obtain rfl := Option.some.inj hs
  obtain ⟨hmsb, hlsb⟩ := choosePrevPoc_prepared s.video s.slice hd s.last.isSome
  obtain ⟨hstarts, hp, hnear, hvalue, hbottom⟩ := htold
  dsimp only at hstarts hp hnear hvalue hbottom
  -- the reference picture before, as the slice finds it
  have hprev : (if hd.idrFlag then 0 else s.video.prevPicOrderCntMsb) =
        s32 ((if hd.idrFlag then 0 else s.reference) -
          (if hd.idrFlag then 0 else s.reference) % maxPocLsb sps) ∧
      (if hd.idrFlag then 0 else s.video.prevPicOrderCntLsb) =
        (if hd.idrFlag then 0 else s.reference) % maxPocLsb sps := by
    cases hidr : hd.idrFlag with
    | true => simp [s32]
    | false =>
      have hlast : s.last ≠ none := fun hnone => by
        rw [hidr] at hstarts
        exact absurd (hstarts hnone) Bool.false_ne_true
      exact ⟨h.msb hlast, h.lsb hlast⟩
  generalize (if hd.idrFlag then 0 else s.reference) = q at hprev hnear ⊢
  obtain ⟨hword, hsum⟩ := pocMsbWord_add hlog hnear hvalue
  have hmsb' : pocMsbWord (maxPocLsb sps)
      (choosePrevPoc (Dpb.prepareVideo s.video hd s.last.isSome)
        (Dpb.prepareSlice s.slice hd)).prevPicOrderCntMsb
      (choosePrevPoc (Dpb.prepareVideo s.video hd s.last.isSome)
        (Dpb.prepareSlice s.slice hd)).prevPicOrderCntLsb
      (Dpb.prepareSlice s.slice hd).picOrderCntLsb = s32 (p - p % maxPocLsb sps) := by
    rw [hmsb, hlsb, hprev.1, hprev.2]
    show pocMsbWord _ _ _ hd.picOrderCntLsb = _
    rw [hp]
    exact hword
  have hpoc : s32 (s32 (p - p % maxPocLsb sps) + hd.picOrderCntLsb) = p := by rw [hp, hsum]
  constructor
  · intro h' p' hlast
    obtain ⟨rfl, rfl⟩ := Prod.mk.inj (Option.some.inj hlast)
    dsimp only [decodePoc0Word]
    rw [hmsb']
    exact placePocWord_assigned s.slice hd hpoc fun hframe => s32_of_intRange (hbottom hframe)
  · intro _
    dsimp only [decodePoc0Word]
    rw [(rememberPoc_prev _ _).2, hmsb', (placePocWord_same _ _).1, (placePocWord_same _ _).2.1,
      hlsb, hprev.2]
    show (if hd.nalReferenceIdc ≠ 0 then hd.picOrderCntLsb else _) = _
    split
    · exact hp
    · rfl
  · intro _
    dsimp only [decodePoc0Word]
    rw [(rememberPoc_prev _ _).1, hmsb', (placePocWord_same _ _).1, (placePocWord_same _ _).2.2,
      hmsb, hprev.1]
    show (if hd.nalReferenceIdc ≠ 0 then _ else _) = _
    split
    · rfl
    · rfl

end Steps

/-- Before the first picture: whatever the fields hold. -/
def pocStart (v : VideoParameters) (sl : Slice) : PocRun :=
  { video := v, slice := sl, last := none, reference := 0 }

/-- Along every stream that tells the POCs with distances up to half of the period upwards and less
than half of it down, every picture gets the POC that was intended for it. -/
theorem poc_assigned (sps : SPSParameters) (hlog : sps.log2MaxPicOrderCntLsbMinus4 + 4 < 32)
    (v : VideoParameters) (sl : Slice) {pics : List (SliceParam × Int)}
    (htold : Guarded (pocStep sps) (PocTold UpHalf sps) (pocStart v sl) pics) :
    Always (pocStep sps) Assigned (pocStart v sl) pics := by
  have hstart : PocKept sps (pocStart v sl) := by
    constructor
    · intro h p hlast
      exact nomatch hlast
    · exact fun hne => absurd rfl hne
    · exact fun hne => absurd rfl hne
  have hkept : Always (pocStep sps) (PocKept sps) (pocStart v sl) pics :=
    always_of_guarded (fun s pic t h hok hs => pocStep_kept hlog h hok hs) hstart htold
  exact hkept.imp fun _ h => h.assigned

/-- Sixteen values of the low bits. -/
def shortSps : SPSParameters := {}

/-- An IDR picture at 0 and one half a period behind it. -/
def halfUpPics : List (SliceParam × Int) :=
  [({ idrFlag := true, nalReferenceIdc := 1 }, 0), ({ picOrderCntLsb := 8, nalReferenceIdc := 1 }, 8)]

/-- The same bits, half a period before it. -/
def halfDownPics : List (SliceParam × Int) :=
  [({ idrFlag := true, nalReferenceIdc := 1 }, 0), ({ picOrderCntLsb := 8, nalReferenceIdc := 1 }, -8)]

theorem poc_assigned_half_up :
    Always (pocStep shortSps) Assigned (pocStart {} {}) halfUpPics :=
  poc_assigned shortSps (by decide) {} {} (by decide)

/-- Half a period down is read as half a period upwards. -/
theorem poc_half_down :
    ¬ ∀ (sps : SPSParameters) (v : VideoParameters) (sl : Slice) (pics : List (SliceParam × Int)),
      sps.log2MaxPicOrderCntLsbMinus4 + 4 < 32 →
      Guarded (pocStep sps) (PocTold DownHalf sps) (pocStart v sl) pics →
        Always (pocStep sps) Assigned (pocStart v sl) pics := by
  intro hall
  have halways := hall shortSps {} {} halfDownPics (by decide) (by decide)
  have hend : (run (pocStep shortSps) (pocStart {} {}) halfDownPics).map
      (fun s => (s.slice.toppoc, s.last.map fun last => (last.1.picStructure, last.2))) =
        some (8, some (.frame, -8)) := by decide
  obtain ⟨t, ht, hpocs⟩ := Option.map_eq_some_iff.mp hend
  obtain ⟨htop, hlast⟩ := Prod.mk.inj hpocs
  obtain ⟨⟨h, p⟩, hlast, hpic⟩ := Option.map_eq_some_iff.mp hlast
  obtain ⟨hframe, rfl⟩ := Prod.mk.inj hpic
  have hassigned := always_last halways ht h (-8) hlast
  rw [hframe] at hassigned
  exact absurd (htop.symm.trans hassigned.1) (by decide)

end MediaModules.H264Dpb
