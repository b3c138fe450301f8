import MediaModules.Lib.Run
import Mathlib.Algebra.Order.Ring.Int
import Mathlib.Tactic.Ring

/-!
# HEVC picture order counts

A slice carries the low bits of its picture's order count. The others come from an earlier picture:
in the standard the last one of temporal layer 0 that others may refer to, in the code the last one
of temporal layer 0.
-/
namespace MediaModules.Hevc

open MediaModules.Lib.Run

def NAL_UNIT_CODED_SLICE_RADL_N : Nat := 6

def NAL_UNIT_CODED_SLICE_TFD : Nat := 9

def NAL_UNIT_RESERVED_14 : Nat := 14

def NAL_UNIT_CODED_SLICE_BLA : Nat := 16

def NAL_UNIT_CODED_SLICE_BLANT : Nat := 17

def NAL_UNIT_CODED_SLICE_BLA_N_LP : Nat := 18

def NAL_UNIT_CODED_SLICE_IDR : Nat := 19

def NAL_UNIT_CODED_SLICE_IDR_N_LP : Nat := 20

def NAL_UNIT_CODED_SLICE_CRA : Nat := 21

/-- The picture of a slice: what the code reads, and `NoRaslOutputFlag` of the standard, which only
matters for CRA pictures. -/
structure PocPic where
  mNalUnitType : Nat
  mTemporalId : Nat
  log2MaxPicOrderCntLsbMinus4 : Nat
  POClsb : Nat
  noRaslOutputFlag : Bool

namespace PocPic
variable (p : PocPic)

def IsIdr : Prop :=
  p.mNalUnitType = NAL_UNIT_CODED_SLICE_IDR ∨ p.mNalUnitType = NAL_UNIT_CODED_SLICE_IDR_N_LP

def IsBla : Prop :=
  p.mNalUnitType = NAL_UNIT_CODED_SLICE_BLA ∨ p.mNalUnitType = NAL_UNIT_CODED_SLICE_BLANT ∨
    p.mNalUnitType = NAL_UNIT_CODED_SLICE_BLA_N_LP

instance : Decidable p.IsIdr := inferInstanceAs (Decidable (_ ∨ _))

instance : Decidable p.IsBla := inferInstanceAs (Decidable (_ ∨ _ ∨ _))

/-- `iMaxPOClsb` -/
def maxPocLsb : Int := 2 ^ (p.log2MaxPicOrderCntLsbMinus4 + 4)

end PocPic

/-- `iPOCmsb`, for the remainder and the rest of the previous POC. -/
def pocMsb (maxPocLsb prevLsb prevMsb lsb : Int) : Int :=
  if lsb < prevLsb ∧ prevLsb - lsb ≥ maxPocLsb / 2 then prevMsb + maxPocLsb
  else if lsb > prevLsb ∧ lsb - prevLsb > maxPocLsb / 2 then prevMsb - maxPocLsb
  else prevMsb

/-- The sum of both parts, with the remainder of C. -/
def pocFrom (maxPocLsb prev lsb : Int) : Int :=
  pocMsb maxPocLsb (prev.tmod maxPocLsb) (prev - prev.tmod maxPocLsb) lsb + lsb

/-- `curr_POC` of `hevc_slice_segment_header_process`; `prev` is `iPrevTid0POC`. -/
def currPoc (prev : Int) (p : PocPic) : Int :=
  if p.IsIdr then 0
  else if p.IsBla then 0 + p.POClsb
  else pocFrom p.maxPocLsb prev p.POClsb

/-- `iPrevTid0POC` afterwards -/
def nextPrevTid0Poc (prev : Int) (p : PocPic) : Int :=
  if (p.mTemporalId : Int) - 1 = 0 then currPoc prev p else prev

/-!
## The standard
-/

/-- An IRAP picture whose `NoRaslOutputFlag` is set starts a coded video sequence. -/
def PocPic.StartsSequence (p : PocPic) : Prop :=
  p.IsIdr ∨ p.IsBla ∨ p.mNalUnitType = NAL_UNIT_CODED_SLICE_CRA ∧ p.noRaslOutputFlag = true

instance (p : PocPic) : Decidable p.StartsSequence := inferInstanceAs (Decidable (_ ∨ _ ∨ _))

/-- `PicOrderCntVal` of clause 8.3.1; `prev` is that of `prevTid0Pic`. -/
def picOrderCntVal (prev : Int) (p : PocPic) : Int :=
  if p.IsIdr then 0
  else if p.StartsSequence then p.POClsb
  else pocMsb p.maxPocLsb (prev % p.maxPocLsb) (prev - prev % p.maxPocLsb) p.POClsb + p.POClsb

/-- RADL, RASL and sub-layer non-reference pictures are never `prevTid0Pic`. -/
def PocPic.LeadingOrNonRef (p : PocPic) : Prop :=
  NAL_UNIT_CODED_SLICE_RADL_N ≤ p.mNalUnitType ∧ p.mNalUnitType ≤ NAL_UNIT_CODED_SLICE_TFD ∨
    p.mNalUnitType ≤ NAL_UNIT_RESERVED_14 ∧ p.mNalUnitType % 2 = 0

instance (p : PocPic) : Decidable p.LeadingOrNonRef := inferInstanceAs (Decidable (_ ∨ _))

/-- The code and the standard, side by side: what both keep of the previous pictures, the POCs of the
current coded video sequence, and its number of low bits. -/
structure PocRun where
  iPrevTid0POC : Int := 0
  prevTid0 : Int := 0
  pocs : List (Int × Int) := []
  log2 : Nat := 0

def pocStep (s : PocRun) (p : PocPic) : Option PocRun :=
  some {
    iPrevTid0POC := nextPrevTid0Poc s.iPrevTid0POC p
    prevTid0 := if p.mTemporalId = 1 ∧ ¬ p.LeadingOrNonRef then picOrderCntVal s.prevTid0 p
      else s.prevTid0
    pocs := (currPoc s.iPrevTid0POC p, picOrderCntVal s.prevTid0 p) ::
      if p.StartsSequence then [] else s.pocs
    log2 := p.log2MaxPicOrderCntLsbMinus4 }

/-- The number of low bits belongs to a coded video sequence. -/
def LsbFits (s : PocRun) (p : PocPic) : Prop :=
  (p.POClsb : Int) < p.maxPocLsb ∧
    (¬ p.StartsSequence → s.pocs ≠ [] → p.log2MaxPicOrderCntLsbMinus4 = s.log2)

/-- The POCs of the sequence differ as they should. -/
def SameDifferences (s : PocRun) : Prop :=
  ∀ a ∈ s.pocs, ∀ b ∈ s.pocs, a.1 - b.1 = a.2 - b.2

/-- The code finds the POC `x` from `prev`: `x` is at most half a cycle away, and below zero the
cycle starts at the multiple of it above `prev`. -/
def InReach (maxPocLsb prev x : Int) : Prop :=
  if 0 ≤ prev then -maxPocLsb < 2 * (x - prev) ∧ 2 * (x - prev) ≤ maxPocLsb
  else
    0 ≤ prev.tmod maxPocLsb + (x - prev) ∧ 2 * (x - prev) ≤ maxPocLsb ∨
    -maxPocLsb ≤ prev.tmod maxPocLsb + (x - prev) ∧ prev.tmod maxPocLsb + (x - prev) < 0 ∧
      -maxPocLsb < 2 * (x - prev)

/-- The POC that keeps the differences is in reach of the last picture of temporal layer 0. -/
def PocInReach (s : PocRun) (p : PocPic) : Prop :=
  ¬ p.StartsSequence → ∀ a ∈ s.pocs,
    InReach p.maxPocLsb s.iPrevTid0POC (picOrderCntVal s.prevTid0 p + (a.1 - a.2))

instance (s : PocRun) (p : PocPic) : Decidable (LsbFits s p) :=
  inferInstanceAs (Decidable (_ ∧ (¬ _ → ¬ _ → _)))

instance (m prev x : Int) : Decidable (InReach m prev x) := inferInstanceAs (Decidable (ite _ _ _))

instance (s : PocRun) (p : PocPic) : Decidable (PocInReach s p) :=
  inferInstanceAs (Decidable (¬ _ → ∀ a ∈ s.pocs, _))

/-!
## Low bits
-/

section LowBits
variable {h prev lsb x : Int}

theorem eq_zero_of_dvd_of_lt {m a : Int} (hd : m ∣ a) (h1 : -m < a) (h2 : a < m) : a = 0 :=
  Int.eq_zero_of_abs_lt_dvd hd (abs_lt.mpr ⟨h1, h2⟩)

/-- The code finds exactly the numbers in reach. -/
theorem pocFrom_eq_iff (hpos : 0 < h) (h0 : 0 ≤ lsb) (hlt : lsb < 2 * h)
    (hx : 2 * h ∣ x - lsb) : pocFrom (2 * h) prev lsb = x ↔ InReach (2 * h) prev x := by
  have hhalf : 2 * h / 2 = h := Int.mul_ediv_cancel_left h (by decide)
  obtain ⟨r, hr⟩ : ∃ r, prev.tmod (2 * h) = r := ⟨_, rfl⟩
  have hdvd : 2 * h ∣ prev - r := hr ▸ Int.dvd_self_sub_tmod
  -- `x` and what the code computes differ by whole cycles
  have hsame : ∀ k, 2 * h ∣ x - (prev - r + k * (2 * h) + lsb) := fun k => by
    have hsplit : x - (prev - r + k * (2 * h) + lsb) = x - lsb - (prev - r) - k * (2 * h) := by ring
    rw [hsplit]
    exact Int.dvd_sub (Int.dvd_sub hx hdvd) (Int.dvd_mul_left ..)
  have hclose : ∀ k, -(2 * h) < x - (prev - r + k * (2 * h) + lsb) →
      x - (prev - r + k * (2 * h) + lsb) < 2 * h → x - (prev - r + k * (2 * h) + lsb) = 0 :=
    fun k => eq_zero_of_dvd_of_lt (hsame k)
  have hk0 := hclose 0
  have hk1 := hclose 1
  have hkm := hclose (-1)
  rw [Int.zero_mul] at hk0
  rw [Int.one_mul] at hk1
  rw [Int.neg_mul, Int.one_mul] at hkm
  simp only [pocFrom, pocMsb, InReach, hr, hhalf]
  by_cases hneg : 0 ≤ prev
  · have hr0 : 0 ≤ r := hr ▸ Int.tmod_nonneg _ hneg
    have hr1 : r < 2 * h := hr ▸ Int.tmod_lt_of_pos _ (by omega)
    rw [if_pos hneg]
    split
    · omega
    · split <;> omega
  · have hr0 : 0 ≤ -r := by
      rw [← hr, ← Int.neg_tmod]
      exact Int.tmod_nonneg _ (by omega)
    have hr1 : -(2 * h) < r := hr ▸ Int.lt_tmod_of_pos _ (by omega)
    rw [if_neg hneg]
    split
    · omega
    · split <;> omega

/-- The high part is a number of whole cycles. -/
theorem pocMsb_dvd {m prevLsb prevMsb : Int} (hd : m ∣ prevMsb) (lsb : Int) :
    m ∣ pocMsb m prevLsb prevMsb lsb := by
  unfold pocMsb
  split
  · exact Int.dvd_add hd (Int.dvd_refl m)
  · split
    · exact Int.dvd_sub hd (Int.dvd_refl m)
    · exact hd

end LowBits

/-!
## Runs
-/

section Runs
variable {s s' : PocRun} {p : PocPic}

/-- All POCs of the sequence keep the low bits of their pictures. -/
structure PocSound (s : PocRun) : Prop where
  same : SameDifferences s
  cycles : ∀ a ∈ s.pocs, (2 : Int) ^ (s.log2 + 4) ∣ a.1 - a.2

theorem maxPocLsb_eq (p : PocPic) : p.maxPocLsb = 2 * 2 ^ (p.log2MaxPicOrderCntLsbMinus4 + 3) := by
  rw [PocPic.maxPocLsb, show p.log2MaxPicOrderCntLsbMinus4 + 4 =
    p.log2MaxPicOrderCntLsbMinus4 + 3 + 1 from rfl, Int.pow_succ, Int.mul_comm]

theorem currPoc_continues (h : ¬ p.StartsSequence) (prev : Int) :
    currPoc prev p = pocFrom p.maxPocLsb prev p.POClsb := by
  rw [currPoc, if_neg fun hidr => h (Or.inl hidr), if_neg fun hbla => h (Or.inr (Or.inl hbla))]

/-- A picture that continues a sequence has the low bits it carries. -/
theorem picOrderCntVal_dvd (h : ¬ p.StartsSequence) (prev : Int) :
    p.maxPocLsb ∣ picOrderCntVal prev p - p.POClsb := by
  rw [picOrderCntVal, if_neg fun hidr => h (Or.inl hidr), if_neg h, Int.add_sub_cancel]
  exact pocMsb_dvd Int.dvd_self_sub_emod _

/-- The POCs of its first picture differ by whole cycles. -/
theorem start_dvd (h : p.StartsSequence) (prev prev' : Int) :
    p.maxPocLsb ∣ currPoc prev p - picOrderCntVal prev' p := by
  unfold currPoc picOrderCntVal
  split
  · exact Int.dvd_zero _
  · split
    · rw [Int.zero_add, Int.sub_self]
      exact Int.dvd_zero _
    · rw [pocFrom, Int.add_sub_cancel]
      exact pocMsb_dvd Int.dvd_self_sub_tmod _

/-- A picture that continues the sequence keeps the differences exactly when its POC is in reach. -/
theorem PocSound.continue_iff (h : PocSound s) (hdom : LsbFits s p) (hp : ¬ p.StartsSequence) :
    (∀ a ∈ s.pocs, currPoc s.iPrevTid0POC p - a.1 = picOrderCntVal s.prevTid0 p - a.2) ↔
      PocInReach s p := by
  have hpow : (0 : Int) < 2 ^ (p.log2MaxPicOrderCntLsbMinus4 + 3) := Int.pow_pos (by decide)
  have hlsb := hdom.1
  rw [currPoc_continues hp]
  simp only [PocInReach, hp, not_false_eq_true, true_imp_iff]
  refine forall_congr' fun a => forall_congr' fun ha => ?_
  have hlog := hdom.2 hp (List.ne_nil_of_mem ha)
  have hdvd : p.maxPocLsb ∣ picOrderCntVal s.prevTid0 p + (a.1 - a.2) - p.POClsb := by
    have hcycles := h.cycles a ha
    rw [← hlog] at hcycles
    have hsum := Int.dvd_add (picOrderCntVal_dvd hp s.prevTid0) hcycles
    rwa [show picOrderCntVal s.prevTid0 p - p.POClsb + (a.1 - a.2) =
      picOrderCntVal s.prevTid0 p + (a.1 - a.2) - p.POClsb by omega] at hsum
  rw [maxPocLsb_eq] at hdvd hlsb ⊢
  rw [← pocFrom_eq_iff hpow (by omega) hlsb hdvd]
  omega

/-- A picture in reach keeps the run sound. -/
theorem PocSound.step (h : PocSound s) (hdom : LsbFits s p) (hok : PocInReach s p)
    (hs : pocStep s p = some s') : PocSound s' := by
  obtain rfl := Option.some.inj hs
  by_cases hp : p.StartsSequence
  · refine ⟨?_, ?_⟩
    · simp only [SameDifferences, if_pos hp, List.mem_singleton]
      rintro a rfl b rfl
      omega
    · simp only [if_pos hp, List.mem_singleton]
      rintro a rfl
      exact start_dvd hp _ _
  · have hnew := (h.continue_iff hdom hp).mpr hok
    refine ⟨?_, ?_⟩
    · simp only [SameDifferences, if_neg hp, List.mem_cons]
      rintro a (rfl | ha) b (rfl | hb)
      · omega
      · exact hnew b hb
      · have hab := hnew a ha
        omega
      · exact h.same a ha b hb
    · simp only [if_neg hp, List.mem_cons]
      rintro a (rfl | ha)
      · have hc : p.maxPocLsb ∣ currPoc s.iPrevTid0POC p - p.POClsb := by
          rw [currPoc_continues hp, pocFrom, Int.add_sub_cancel]
          exact pocMsb_dvd Int.dvd_self_sub_tmod _
        have hsub := Int.dvd_sub hc (picOrderCntVal_dvd hp s.prevTid0)
        rwa [show currPoc s.iPrevTid0POC p - p.POClsb - (picOrderCntVal s.prevTid0 p - p.POClsb) =
          currPoc s.iPrevTid0POC p - picOrderCntVal s.prevTid0 p by omega] at hsub
      · rw [hdom.2 hp (List.ne_nil_of_mem ha)]
        exact h.cycles a ha

/-- One out of reach gets a POC at a wrong distance. -/
theorem PocSound.step_breaks (h : PocSound s) (hdom : LsbFits s p) (hok : ¬ PocInReach s p)
    (hs : pocStep s p = some s') : ¬ SameDifferences s' := by
  obtain rfl := Option.some.inj hs
  have hp : ¬ p.StartsSequence := fun hp => hok fun hno => absurd hp hno
  refine fun hsame => hok ((h.continue_iff hdom hp).mp fun a ha => ?_)
  simp only [SameDifferences, if_neg hp] at hsame
  exact hsame _ List.mem_cons_self a (List.mem_cons_of_mem _ ha)

/-- All along a run the POCs of a coded video sequence differ as in the standard exactly when each
picture that continues one finds its POC in reach of the last picture of temporal layer 0. -/
theorem same_differences_iff {ps : List PocPic} (hfits : Guarded pocStep LsbFits {} ps) :
    Always pocStep SameDifferences {} ps ↔ Guarded pocStep PocInReach {} ps := by
  have hstart : PocSound {} := ⟨fun a ha => (by cases ha), fun a ha => (by cases ha)⟩
  have hstep : ∀ s p, ∃ s', pocStep s p = some s' := fun s p => ⟨_, rfl⟩
  have htotal : ∃ t, run pocStep {} ps = some t := by
    obtain ⟨t, ht, -⟩ := run_total (P := fun _ => True)
      (fun s p _ => (hstep s p).imp fun _ hs => ⟨hs, trivial⟩) trivial ps
    exact ⟨t, ht⟩
  have hiff := defined_iff_guarded_within (fun _ (h : PocSound _) => h.same)
    (fun s p h hdom hok => (hstep s p).imp fun _ hs => ⟨hs, h.step hdom hok hs⟩)
    (fun _ _ _ h hdom hok hs => h.step_breaks hdom hok hs) hstart hfits
  exact ⟨fun h => hiff.mp ⟨htotal, h⟩, fun h => (hiff.mpr h).2⟩

/-- A picture of temporal layer 0 with four low bits. -/
def pocPic (nal lsb : Nat) : PocPic := ⟨nal, 1, 0, lsb, false⟩

/-- An IDR picture and the pictures 3 and 8 behind it. -/
theorem same_differences_trail : Always pocStep SameDifferences {}
    [pocPic NAL_UNIT_CODED_SLICE_IDR 0, pocPic 1 3, pocPic 1 8] := by
  refine (same_differences_iff ?_).mpr ?_
  · simp only [Guarded, pocStep, Option.some.injEq, forall_eq']
    decide +kernel
  · simp only [Guarded, pocStep, Option.some.injEq, forall_eq']
    decide +kernel

/-- An IDR picture, a leading picture with POC -7 and the picture 8: the code computes -8. -/
theorem leading_picture_misleads :
    Guarded pocStep LsbFits {}
      [pocPic NAL_UNIT_CODED_SLICE_IDR 0, pocPic NAL_UNIT_CODED_SLICE_RADL_N 9, pocPic 1 8] ∧
    ¬ Always pocStep SameDifferences {}
      [pocPic NAL_UNIT_CODED_SLICE_IDR 0, pocPic NAL_UNIT_CODED_SLICE_RADL_N 9, pocPic 1 8] := by
  constructor
  · simp only [Guarded, pocStep, Option.some.injEq, forall_eq']
    decide +kernel
  · intro h
    have hlast := always_last h rfl
    exact absurd (hlast (-8, 8) (by decide +kernel) (0, 0) (by decide +kernel)) (by decide)

end Runs

end MediaModules.Hevc
