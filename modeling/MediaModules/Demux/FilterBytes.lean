import MediaModules.Demux.Matching

/-!
# Which bytes of a section a filter looks at

A filter is meant to compare its sixteen bytes with the section's bytes 0 and 3 to 17. The loop of
`sec_filter_match` runs over the first sixteen entries of the stored arrays, which have a gap of two:
it never sees the last two filter bytes.
-/
namespace MediaModules.Demux

/-- The section byte that filter byte `i` is compared with. -/
def sectionByte (i : Fin secFilterLen) : Nat := if i.val = 0 then 0 else i.val + 2

/-- The positively and the negatively masked bits of a filter byte. -/
def SecParams.positive (params : SecParams) (i : Fin secFilterLen) : UInt8 :=
  params.mask i &&& ~~~params.mode i

def SecParams.negative (params : SecParams) (i : Fin secFilterLen) : UInt8 :=
  params.mask i &&& params.mode i

section Spec
variable (params : SecParams) (data : List UInt8) (p : Fin secFilterLen → Prop)

/-- Filter byte `i` and its section byte have the same `bits`. -/
def SameBits (bits : UInt8) (i : Fin secFilterLen) : Prop :=
  data.getD (sectionByte i) 0 &&& bits = params.value i &&& bits

/-- The positively masked bits of the filter bytes `p` are those of the section. -/
def PositivesHold : Prop := ∀ i, p i → SameBits params data (params.positive i) i

/-- Some bit of the filter bytes `p` is negatively masked. -/
def AnyNegative : Prop := ∃ i, p i ∧ params.negative i ≠ 0

/-- A negatively masked bit of the filter bytes `p` differs from the section. -/
def NegativeDiffers : Prop := ∃ i, p i ∧ ¬ SameBits params data (params.negative i) i

/-- What the filter is meant to accept, by all of its bytes. -/
def Wanted : Prop := PositivesHold params data (fun _ => True) ∧
  (AnyNegative params (fun _ => True) → NegativeDiffers params data fun _ => True)

/-- The filter bytes the loop sees, and the others. -/
def Seen (i : Fin secFilterLen) : Prop := i.val < 14

def Unseen (i : Fin secFilterLen) : Prop := ¬ Seen i

instance (i : Fin secFilterLen) : Decidable (Seen i) := inferInstanceAs (Decidable (i.val < 14))

instance (i : Fin secFilterLen) : Decidable (Unseen i) := inferInstanceAs (Decidable (¬ Seen i))

/-- The last two filter bytes decide nothing: the others have a wrong positive bit, or

- the positive bits of the last two are right if the others accept,
- a negative bit of the last two differs if they have one and the others have none,
- and if the negative bits of the others reject, the last two do not make up for it. -/
def LastTwoIdle : Prop := PositivesHold params data Seen →
  ((AnyNegative params Seen → NegativeDiffers params data Seen) →
    PositivesHold params data Unseen) ∧
  (¬ AnyNegative params Seen → AnyNegative params Unseen → NegativeDiffers params data Unseen) ∧
  (AnyNegative params Seen → ¬ NegativeDiffers params data Seen →
    ¬ (PositivesHold params data Unseen ∧ NegativeDiffers params data Unseen))

end Spec

section Loop
variable {params : SecParams} {data : List UInt8}

theorem manm_eq (params : SecParams) (j : Fin (secFilterLen + 2)) :
    (secConfigOf params).manm j = (secFieldSource j).elim 0 params.negative := by
  simp only [secConfigOf, secFieldArray_eq, UInt8.not_not]
  rfl

theorem mam_eq (params : SecParams) (j : Fin (secFilterLen + 2)) :
    (secConfigOf params).mam j = (secFieldSource j).elim 0 params.positive := by
  simp only [secConfigOf, secFieldArray_eq]
  rfl

theorem value_eq (params : SecParams) (j : Fin (secFilterLen + 2)) :
    (secConfigOf params).value j = (secFieldSource j).elim 0 params.value :=
  secFieldArray_eq params.value j

/-- The entries the loop looks at hold the filter bytes it sees, next to the section bytes they are
compared with. -/
theorem seen_iff (i : Fin secFilterLen) : Seen i ↔
    ∃ j : Fin secFilterLen, secFieldSource (j.castAdd 2) = some i ∧ j.val = sectionByte i := by
  revert i
  decide

theorem source_sectionByte {j i : Fin secFilterLen} (h : secFieldSource (j.castAdd 2) = some i) :
    j.val = sectionByte i := by
  revert j i
  decide

theorem agree_iff {mask : Fin (secFilterLen + 2) → UInt8} {bits : Fin secFilterLen → UInt8}
    (hmask : ∀ j, mask j = (secFieldSource j).elim 0 bits) (j : Fin secFilterLen) :
    Agree data (secConfigOf params) mask j ↔
      ∀ i, secFieldSource (j.castAdd 2) = some i → SameBits params data (bits i) i := by
  rw [Agree, hmask, value_eq]
  cases h : secFieldSource (j.castAdd 2) with
  | none => simp
  | some i =>
    rw [Option.elim_some, Option.elim_some, source_sectionByte h]
    simp [SameBits]

/-- The loop accepts by the filter bytes it sees. -/
theorem secFilterMatch_seen : secFilterMatch data (secConfigOf params) = true ↔
    PositivesHold params data Seen ∧
      (AnyNegative params Seen → NegativeDiffers params data Seen) := by
  rw [secFilterMatch_iff]
  have hpos : (∀ j, Agree data (secConfigOf params) (secConfigOf params).mam j) ↔
      PositivesHold params data Seen := by
    simp only [agree_iff (mam_eq params)]
    constructor
    · intro h i hi
      obtain ⟨j, hj, -⟩ := (seen_iff i).mp hi
      exact h j i hj
    · intro h j i hj
      exact h i ((seen_iff i).mpr ⟨j, hj, source_sectionByte hj⟩)
  have hneg : (∃ j : Fin secFilterLen, (secConfigOf params).manm (j.castAdd 2) ≠ 0) ↔
      AnyNegative params Seen := by
    simp only [manm_eq]
    constructor
    · rintro ⟨j, hj⟩
      cases h : secFieldSource (j.castAdd 2) with
      | none => rw [h] at hj; exact absurd rfl hj
      | some i =>
        rw [h] at hj
        exact ⟨i, (seen_iff i).mpr ⟨j, h, source_sectionByte h⟩, hj⟩
    · rintro ⟨i, hi, hne⟩
      obtain ⟨j, hj, -⟩ := (seen_iff i).mp hi
      exact ⟨j, by rw [hj]; exact hne⟩
  have hdiff : (∃ j, ¬ Agree data (secConfigOf params) (secConfigOf params).manm j) ↔
      NegativeDiffers params data Seen := by
    simp only [agree_iff (manm_eq params), not_forall]
    constructor
    · rintro ⟨j, i, hj, hne⟩
      exact ⟨i, (seen_iff i).mpr ⟨j, hj, source_sectionByte hj⟩, hne⟩
    · rintro ⟨i, hi, hne⟩
      obtain ⟨j, hj, -⟩ := (seen_iff i).mp hi
      exact ⟨j, i, hj, hne⟩
  rw [hpos, hneg, hdiff]

theorem positivesHold_split : PositivesHold params data (fun _ => True) ↔
    PositivesHold params data Seen ∧ PositivesHold params data Unseen :=
  ⟨fun h => ⟨fun i _ => h i trivial, fun i _ => h i trivial⟩,
    fun h i _ => (Decidable.em (Seen i)).elim (h.1 i) (h.2 i)⟩

theorem anyNegative_split : AnyNegative params (fun _ => True) ↔
    AnyNegative params Seen ∨ AnyNegative params Unseen := by
  constructor
  · rintro ⟨i, -, h⟩
    exact (Decidable.em (Seen i)).imp (fun hi => ⟨i, hi, h⟩) fun hi => ⟨i, hi, h⟩
  · rintro (⟨i, -, h⟩ | ⟨i, -, h⟩) <;> exact ⟨i, trivial, h⟩

theorem negativeDiffers_split : NegativeDiffers params data (fun _ => True) ↔
    NegativeDiffers params data Seen ∨ NegativeDiffers params data Unseen := by
  constructor
  · rintro ⟨i, -, h⟩
    exact (Decidable.em (Seen i)).imp (fun hi => ⟨i, hi, h⟩) fun hi => ⟨i, hi, h⟩
  · rintro (⟨i, -, h⟩ | ⟨i, -, h⟩) <;> exact ⟨i, trivial, h⟩

/-- A bit can only differ where one is masked. -/
theorem NegativeDiffers.anyNegative {p : Fin secFilterLen → Prop}
    (h : NegativeDiffers params data p) : AnyNegative params p := by
  obtain ⟨i, hi, hne⟩ := h
  refine ⟨i, hi, fun h0 => hne ?_⟩
  rw [SameBits, h0, UInt8.and_zero, UInt8.and_zero]

/-- The code decides as all filter bytes do exactly when the last two decide nothing. -/
theorem match_wanted_iff : (secFilterMatch data (secConfigOf params) = true ↔ Wanted params data) ↔
    LastTwoIdle params data := by
  rw [secFilterMatch_seen, Wanted, positivesHold_split, anyNegative_split, negativeDiffers_split,
    LastTwoIdle]
  have hseen : NegativeDiffers params data Seen → AnyNegative params Seen := fun h => h.anyNegative
  have hunseen : NegativeDiffers params data Unseen → AnyNegative params Unseen :=
    fun h => h.anyNegative
  by_cases hneg : AnyNegative params Seen
  · grind
  · have hsame : ¬ NegativeDiffers params data Seen := fun h => hneg (hseen h)
    grind

end Loop

section Sections
variable (params : SecParams)

/-- The section whose bytes that filter bytes are compared with are `g`. -/
def sectionOf (g : Fin secFilterLen → UInt8) : List UInt8 :=
  List.ofFn fun j : Fin (secFilterLen + 2) => (secFieldSource j).elim 0 g

theorem sectionOf_length (g : Fin secFilterLen → UInt8) : (sectionOf g).length = 18 :=
  List.length_ofFn

theorem sectionOf_byte (g : Fin secFilterLen → UInt8) (i : Fin secFilterLen) :
    (sectionOf g).getD (sectionByte i) 0 = g i := by
  fin_cases i <;> rfl

theorem xor_and_distrib (v b c : UInt8) : (v ^^^ b) &&& c = (v &&& c) ^^^ (b &&& c) := by
  refine UInt8.toBitVec_inj.mp (BitVec.eq_of_getLsbD_eq fun k _ => ?_)
  simp [Bool.and_xor_distrib_right]

/-- Inverting some bits of a byte changes them and no others. -/
theorem flip_same (v b : UInt8) : (v ^^^ b) &&& b = v &&& b ↔ b = 0 := by
  have hzero : (v &&& b) ^^^ b = (v &&& b) ^^^ 0 ↔ b = 0 := UInt8.xor_right_inj _
  rw [xor_and_distrib, UInt8.and_self]
  rwa [UInt8.xor_zero] at hzero

theorem flip_other {b c : UInt8} (v : UInt8) (h : b &&& c = 0) : (v ^^^ b) &&& c = v &&& c := by
  rw [xor_and_distrib, h, UInt8.xor_zero]

theorem positive_and_negative (i : Fin secFilterLen) :
    params.positive i &&& params.negative i = 0 := by
  refine UInt8.toBitVec_inj.mp (BitVec.eq_of_getLsbD_eq fun k _ => ?_)
  simp only [SecParams.positive, SecParams.negative, UInt8.toBitVec_and, UInt8.toBitVec_not,
    BitVec.getLsbD_and, BitVec.getLsbD_not]
  cases (params.mode i).toBitVec.getLsbD k <;> simp

theorem negative_and_positive (i : Fin secFilterLen) :
    params.negative i &&& params.positive i = 0 := by
  rw [UInt8.and_comm, positive_and_negative]

theorem mask_eq_zero (i : Fin secFilterLen) :
    params.mask i = 0 ↔ params.positive i = 0 ∧ params.negative i = 0 := by
  have hor : params.mask i = params.positive i ||| params.negative i := by
    refine UInt8.toBitVec_inj.mp (BitVec.eq_of_getLsbD_eq fun k hk => ?_)
    simp only [SecParams.positive, SecParams.negative, UInt8.toBitVec_and, UInt8.toBitVec_not,
      UInt8.toBitVec_or, BitVec.getLsbD_or, BitVec.getLsbD_and, BitVec.getLsbD_not]
    cases (params.mode i).toBitVec.getLsbD k <;> simp [hk]
  rw [hor, UInt8.or_eq_zero_iff]

/-- A section that differs from the filter in the bits `flips`. -/
def flipped (flips : Fin secFilterLen → UInt8) : List UInt8 :=
  sectionOf fun i => params.value i ^^^ flips i

theorem flipped_same (flips : Fin secFilterLen → UInt8) (bits : UInt8) (i : Fin secFilterLen) :
    SameBits params (flipped params flips) bits i ↔
      (params.value i ^^^ flips i) &&& bits = params.value i &&& bits := by
  rw [SameBits, flipped, sectionOf_byte]

/-- A positively masked bit of the last two filter bytes can be wrong unnoticed. -/
theorem positive_missed {b : Fin secFilterLen} (hb : Unseen b) (hpos : params.positive b ≠ 0) :
    ∃ data : List UInt8, data.length = 18 ∧ ¬ LastTwoIdle params data := by
  let flips := fun i => if Seen i then params.negative i else params.positive i
  refine ⟨flipped params flips, sectionOf_length _, fun hidle => ?_⟩
  have hseen : PositivesHold params (flipped params flips) Seen := fun i hi => by
    rw [flipped_same, show flips i = params.negative i from if_pos hi]
    exact flip_other _ (negative_and_positive params i)
  have hdiff : AnyNegative params Seen → NegativeDiffers params (flipped params flips) Seen := by
    rintro ⟨i, hi, hne⟩
    refine ⟨i, hi, ?_⟩
    rw [flipped_same, show flips i = params.negative i from if_pos hi, flip_same]
    exact hne
  have hwrong := (hidle hseen).1 hdiff b hb
  rw [flipped_same, show flips b = params.positive b from if_neg hb, flip_same] at hwrong
  exact hpos hwrong

/-- A negatively masked bit of the last two filter bytes can decide unnoticed. -/
theorem negative_missed {b : Fin secFilterLen} (hb : Unseen b) (hneg : params.negative b ≠ 0) :
    ∃ data : List UInt8, data.length = 18 ∧ ¬ LastTwoIdle params data := by
  by_cases hfirst : AnyNegative params Seen
  · -- the seen bytes reject, and only byte `b` could make up for it
    let flips := fun i => if i = b then params.negative i else 0
    refine ⟨flipped params flips, sectionOf_length _, fun hidle => ?_⟩
    have hpos : ∀ p, PositivesHold params (flipped params flips) p := fun p i _ => by
      rw [flipped_same]
      apply flip_other _
      show (if i = b then params.negative i else 0) &&& _ = 0
      split
      · exact negative_and_positive params i
      · exact UInt8.zero_and
    have hsame : ¬ NegativeDiffers params (flipped params flips) Seen := by
      rintro ⟨i, hi, hne⟩
      have hib : i ≠ b := fun h => hb (h ▸ hi)
      rw [flipped_same, show flips i = 0 from if_neg hib, UInt8.xor_zero] at hne
      exact hne rfl
    refine (hidle (hpos _)).2.2 hfirst hsame ⟨hpos _, b, hb, ?_⟩
    rw [flipped_same, show flips b = params.negative b from if_pos rfl, flip_same]
    exact hneg
  · -- without a negative bit in the seen bytes the equal section is accepted
    refine ⟨flipped params fun _ => 0, sectionOf_length _, fun hidle => ?_⟩
    have hsame : ∀ bits i, SameBits params (flipped params fun _ => 0) bits i := fun bits i => by
      rw [flipped_same, UInt8.xor_zero]
    obtain ⟨i, -, hne⟩ := (hidle fun i _ => hsame _ i).2.1 hfirst ⟨b, hb, hneg⟩
    exact hne (hsame _ i)

theorem unseen_iff (i : Fin secFilterLen) : Unseen i ↔ i = 14 ∨ i = 15 := by
  revert i
  decide

theorem lastTwoIdle_of_unmasked (h14 : params.mask 14 = 0) (h15 : params.mask 15 = 0)
    (data : List UInt8) : LastTwoIdle params data := by
  have hmask : ∀ i, Unseen i → params.positive i = 0 ∧ params.negative i = 0 := fun i hi => by
    rw [← mask_eq_zero]
    rcases (unseen_iff i).mp hi with rfl | rfl
    · exact h14
    · exact h15
  have hpos : PositivesHold params data Unseen := fun i hi => by
    rw [SameBits, (hmask i hi).1, UInt8.and_zero, UInt8.and_zero]
  have hneg : ¬ AnyNegative params Unseen := fun ⟨i, hi, hne⟩ => hne (hmask i hi).2
  exact fun _ => ⟨fun _ => hpos, fun _ h => absurd h hneg,
    fun _ _ h => hneg h.2.anyNegative⟩

/-- The filter decides by all of its bytes: on one section exactly when the last two decide nothing
there, and on every section of at least 18 bytes exactly when they are not masked. -/
theorem match_iff_wanted :
    (∀ data : List UInt8, 18 ≤ data.length →
      ((secFilterMatch data (secConfigOf params) = true ↔ Wanted params data) ↔
        LastTwoIdle params data)) ∧
    ((∀ data : List UInt8, 18 ≤ data.length →
      (secFilterMatch data (secConfigOf params) = true ↔ Wanted params data)) ↔
      params.mask 14 = 0 ∧ params.mask 15 = 0) := by
  refine ⟨fun _ _ => match_wanted_iff, ?_⟩
  simp only [match_wanted_iff]
  constructor
  · intro h
    have hidle : ∀ b, Unseen b → params.mask b = 0 := fun b hb => by
      by_contra hne
      rw [mask_eq_zero, not_and_or] at hne
      obtain ⟨data, hlen, hbad⟩ :=
        hne.elim (positive_missed params hb) (negative_missed params hb)
      exact hbad (h data hlen.ge)
    exact ⟨hidle 14 (by decide), hidle 15 (by decide)⟩
  · rintro ⟨h14, h15⟩ data -
    exact lastTwoIdle_of_unmasked params h14 h15 data

/-- A filter for the value 1 in section byte 16 accepts a section that has 0 there. -/
theorem last_byte_missed : ∃ (params : SecParams) (data : List UInt8), 18 ≤ data.length ∧
    secFilterMatch data (secConfigOf params) = true ∧ ¬ Wanted params data := by
  refine ⟨⟨0x100, 0, fun i => if i = 14 then 1 else 0, fun i => if i = 14 then 0xff else 0,
    fun _ => 0⟩, List.replicate 18 0, by decide, by decide, fun h => ?_⟩
  exact absurd (h.1 14 trivial) (by unfold SameBits; decide)

end Sections

end MediaModules.Demux
