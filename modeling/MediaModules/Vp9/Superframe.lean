import MediaModules.Lib.BitReader
import MediaModules.Lib.Words
import Mathlib.Algebra.Order.BigOperators.Group.List
import Mathlib.Algebra.Order.Ring.Nat

/-!
# The frames of a VP9 buffer

A buffer holds a frame, or several of them with an index at its end, whose first and last byte are the
same marker. The decoder looks for the first frame with a header that it can parse. A frame may have a
prefix of 16 bytes.
-/
namespace MediaModules.Vp9Parser

open Lib.BitReader Lib.Words

def VP9_SYNCCODE : Nat := 0x498342
def INT_MAX : Int := 2147483647
def EINVAL : Int := 22

/-! ## The header of a frame -/

/-- `enum AVPixelFormat`, as far as VP9 has it. -/
inductive PixFmt
  | yuv444p | yuv422p | yuv440p | yuv420p
  | yuv444p10 | yuv422p10 | yuv440p10 | yuv420p10
  | yuv444p12 | yuv422p12 | yuv440p12 | yuv420p12
deriving DecidableEq, Repr

/-- `pix_fmt_for_ss`. -/
def pixFmtForSs (bits v h : Nat) : PixFmt :=
  match bits, v, h with
  | 0, 0, 0 => .yuv444p
  | 0, 0, _ => .yuv422p
  | 0, _, 0 => .yuv440p
  | 0, _, _ => .yuv420p
  | 1, 0, 0 => .yuv444p10
  | 1, 0, _ => .yuv422p10
  | 1, _, 0 => .yuv440p10
  | 1, _, _ => .yuv420p10
  | _, 0, 0 => .yuv444p12
  | _, 0, _ => .yuv422p12
  | _, _, 0 => .yuv440p12
  | _, _, _ => .yuv420p12

/-- What the parser of a header writes of `struct VP9Context`, and the reference that a frame shows. -/
structure Vp9Context where
  profile : Nat := 0
  bpp : Nat := 0
  keyframe : Bool := false
  invisible : Bool := false
  errorres : Bool := false
  intraonly : Bool := false
  resetctx : Nat := 0
  refreshrefmask : Nat := 0
  useLastFrameMvs : Bool := false
  refidx : Nat × Nat × Nat := (0, 0, 0)
  signbias : Bool × Bool × Bool := (false, false, false)
  lastKeyframe : Bool := false
  bppIndex : Nat := 0
  bytesperpixel : Nat := 0
  ssH : Nat := 0
  ssV : Nat := 0
  width : Nat := 0
  height : Nat := 0
  renderWidth : Nat := 0
  renderHeight : Nat := 0
  pixFmt : PixFmt := .yuv444p
  ref : Int := -1

abbrev HeaderParser := Parser Vp9Context

section Header

variable (data : Bytes)

/-- `get_bits`. -/
def getBits (n : Nat) : HeaderParser Nat := next (fun index => bitsAt data index n) n

/-- `get_bits1`. -/
def getBits1 : HeaderParser Bool := next (fun index => bitAt data index ≠ 0) 1

/-- The `colorspaces` that stands for RGB. -/
def AVCOL_SPC_RGB : Nat := 7

/-- The depth: 0 for 8 bits, 1 for 10, 2 for 12. -/
def readDepth (profile : Nat) : HeaderParser Nat :=
  if profile ≤ 1 then pure 0
  else do
    let more ← getBits1 data
    pure (1 + more.toNat)

/-- `read_colorspace_details`. -/
def readColorspaceDetails (profile : Nat) : HeaderParser Unit := do
  let bits ← readDepth data profile
  note fun s => { s with bppIndex := bits, bpp := 8 + bits * 2, bytesperpixel := (15 + bits * 2) / 8 }
  let colorspace ← getBits data 3
  if colorspace = AVCOL_SPC_RGB then
    if profile % 2 = 1 then do
      let reserved ← getBits1 data
      if reserved then fail (-1) else pure ()
    else fail (-1)
  else do
    let _colorRange ← getBits1 data
    if profile % 2 = 1 then do
      let ssH ← getBits1 data
      let ssV ← getBits1 data
      let pixFmt := pixFmtForSs bits ssV.toNat ssH.toNat
      note fun s => { s with ssH := ssH.toNat, ssV := ssV.toNat, pixFmt := pixFmt }
      if pixFmt = .yuv420p then fail (-1)
      else do
        let reserved ← getBits1 data
        if reserved then fail (-1) else pure ()
    else note fun s => { s with ssH := 1, ssV := 1, pixFmt := pixFmtForSs bits 1 1 }

/-- The size of a frame, and the size it is shown in. -/
def readFrameSize : HeaderParser Unit := do
  let width ← getBits data 16
  let height ← getBits data 16
  note fun s => { s with width := width + 1, height := height + 1 }
  let scaled ← getBits1 data
  if scaled then do
    let renderWidth ← getBits data 16
    let renderHeight ← getBits data 16
    note fun s => { s with renderWidth := renderWidth + 1, renderHeight := renderHeight + 1 }
  else note fun s => { s with renderWidth := s.width, renderHeight := s.height }

/-- A frame that is predicted: its references are noted, but its size is not in the header. -/
def readInterFrame (errorres : Bool) : HeaderParser Unit := do
  let refreshrefmask ← getBits data 8
  let ref0 ← getBits data 3
  let bias0 ← getBits1 data
  let ref1 ← getBits data 3
  let bias1 ← getBits1 data
  let ref2 ← getBits data 3
  let bias2 ← getBits1 data
  note fun s => { s with
    refreshrefmask := refreshrefmask
    refidx := (ref0, ref1, ref2)
    signbias := (bias0 && !errorres, bias1 && !errorres, bias2 && !errorres) }
  fail (-1)

/-- The colours of a frame that is not a key frame: profile 0 does not name them. -/
def readIntraColors (profile : Nat) : HeaderParser Unit :=
  if profile ≥ 1 then readColorspaceDetails data profile
  else note fun s => { s with
    ssH := 1
    ssV := 1
    bpp := 8
    bppIndex := 0
    bytesperpixel := 1
    pixFmt := .yuv420p }

/-- A frame without references that is not a key frame. -/
def readIntraFrame (profile : Nat) : HeaderParser Unit := do
  let synccode ← getBits data 24
  if synccode ≠ VP9_SYNCCODE then fail (-1)
  else do
    readIntraColors data profile
    let refreshrefmask ← getBits data 8
    note fun s => { s with refreshrefmask := refreshrefmask }
    readFrameSize data

def readKeyFrame (profile : Nat) : HeaderParser Unit := do
  let synccode ← getBits data 24
  if synccode ≠ VP9_SYNCCODE then fail (-1)
  else do
    readColorspaceDetails data profile
    note fun s => { s with refreshrefmask := 0xff }
    readFrameSize data

def readIntraonly (invisible : Bool) : HeaderParser Bool :=
  if invisible then getBits1 data else pure false

def readResetctx (errorres : Bool) : HeaderParser Nat := if errorres then pure 0 else getBits data 2

/-- A frame that is decoded. -/
def readCodedFrame (profile : Nat) : HeaderParser Unit := do
  let inter ← getBits1 data
  let visible ← getBits1 data
  let errorres ← getBits1 data
  note fun s => { s with
    lastKeyframe := s.keyframe
    keyframe := !inter
    invisible := !visible
    errorres := errorres
    useLastFrameMvs := !errorres && !s.invisible }
  if !inter then readKeyFrame data profile
  else do
    let intraonly ← readIntraonly data !visible
    let resetctx ← readResetctx data errorres
    note fun s => { s with intraonly := intraonly, resetctx := resetctx }
    if intraonly then readIntraFrame data profile else readInterFrame data errorres

/-- The profile: a third bit follows when the first two are set. -/
def readProfile : HeaderParser Nat := do
  let low ← getBits1 data
  let high ← getBits1 data
  if low && high then do
    let more ← getBits1 data
    pure (3 + more.toNat)
  else pure (low.toNat + high.toNat * 2)

/-- The header behind the start of the block. -/
def readHeader : HeaderParser Unit := do
  let marker ← getBits data 2
  if marker ≠ 2 then fail (-1)
  else do
    let profile ← readProfile data
    if profile > 3 then fail (-1)
    else do
      note fun s => { s with profile := profile }
      let shown ← getBits1 data
      if shown then do
        let ref ← getBits data 3
        note fun s => { s with ref := ref }
      else readCodedFrame data profile

/-- `decode_frame_header`. -/
def decodeFrameHeader (size : Int) : HeaderParser Unit := do
  rewind
  if size < 0 ∨ size * 8 ≥ INT_MAX - 512 then fail (-1) else readHeader data

/-- What `decode_frame_header` returns. -/
def headerRet (size : Int) (s : Reader Vp9Context) : Int :=
  match (decodeFrameHeader data size s).1 with
  | .ok _ => 0
  | .error e => e

end Header

/-! ## The superframe index -/

/-- `struct vp9_superframe_split`. -/
structure Split where
  nbFrames : Nat := 0
  size : Int := 0
  nextFrame : Nat := 0
  nextFrameOffset : Nat := 0
  prefixSize : Nat := 0
  sizes : List Int := List.replicate 8 0

/-- A marker has this form. -/
def isMarker (marker : Nat) : Bool := marker &&& 0xe0 = 0xc0

/-- The bytes of a size in the index. -/
def lengthSize (marker : Nat) : Nat := 1 + (marker / 8 % 4)

/-- The frames that a marker announces. -/
def markedFrames (marker : Nat) : Nat := 1 + marker % 8

def idxSize (marker : Nat) : Nat := 2 + markedFrames marker * lengthSize marker

section Filter

variable (data : Bytes)

/-- `AML_PREFIX`: the prefix of a frame ends with AMLV. -/
def hasPrefixTag (start : Nat) : Bool :=
  data (start + 12) = 0x41 && data (start + 13) = 0x4d && data (start + 14) = 0x4c &&
    data (start + 15) = 0x56

/-- The last byte. -/
def lastByte (dataSize : Nat) : Nat := (data (dataSize - 1)).toNat

/-- The bytes of a size, put together. -/
def frameSizeBits (idx : Nat) : Nat → Nat
  | 0 => 0
  | j + 1 => frameSizeBits idx j ||| (data (idx + j)).toNat <<< (j * 8)

/-- The loop over the sizes in the index: the sizes, and their total. -/
def frameSizes (lengthSize : Nat) (limit : Int) : Nat → Nat → Int → Except Int (List Int × Int)
  | 0, _, totalSize => .ok ([], totalSize)
  | n + 1, idx, totalSize =>
    let frameSize := s32 (frameSizeBits data idx lengthSize)
    let totalSize := totalSize + frameSize
    if frameSize < 0 ∨ totalSize > limit then .error (-EINVAL)
    else
      match frameSizes lengthSize limit n (idx + lengthSize) totalSize with
      | .error e => .error e
      | .ok (sizes, totalSize) => .ok (frameSize :: sizes, totalSize)

/-- `vp9_superframe_split_filter` on a zeroed `struct vp9_superframe_split`. -/
def vp9SuperframeSplitFilter (dataSize : Nat) : Except Int Split :=
  let s : Split := { prefixSize := if hasPrefixTag data 0 then 16 else 0 }
  let marker := lastByte data dataSize
  if isMarker marker then
    if dataSize ≥ idxSize marker ∧ (data (dataSize - idxSize marker)).toNat = marker then
      match frameSizes data (lengthSize marker) (dataSize - idxSize marker) (markedFrames marker)
          (dataSize + 1 - idxSize marker) 0 with
      | .error e => .error e
      | .ok (sizes, totalSize) => .ok { s with
          nbFrames := markedFrames marker
          sizes := sizes ++ s.sizes.drop sizes.length
          size := totalSize }
    else .ok s
  else .ok { s with nbFrames := 1, sizes := s.sizes.set 0 dataSize, size := dataSize }

/-- A header that the decoder has tried to parse: where it starts, and the size that is given. -/
structure Attempt where
  start : Nat
  size : Int
deriving DecidableEq, Repr

/-- What the decoder returns, with its `struct vp9_param_sets` and the headers it has tried. -/
structure Decoded where
  ret : Int
  headParsed : Bool
  reader : Reader Vp9Context
  attempts : List Attempt := []

/-- The loop of `vp9_decode_extradata_ps` over the sizes of the frames. -/
def decodeFrames (prefixSize : Nat) : List Int → Nat → Decoded → Decoded
  | [], _, d => d
  | frameSize :: sizes, nextFrameOffset, d =>
    let len := u32 (frameSize - prefixSize)
    let attempt : Attempt := ⟨nextFrameOffset + prefixSize, s32 len⟩
    let buf : Bytes := fun k => data (attempt.start + k)
    let d : Decoded := { d with
      ret := headerRet buf attempt.size d.reader
      reader := (decodeFrameHeader buf attempt.size d.reader).2
      attempts := d.attempts ++ [attempt] }
    if d.ret = 0 then { d with headParsed := d.reader.record.ref < 0 }
    else decodeFrames prefixSize sizes (u32 (len + prefixSize)).toNat d

/-- `vp9_decode_extradata_ps`. -/
def vp9DecodeExtradataPs (dataSize : Nat) (headParsed : Bool) (reader : Reader Vp9Context) : Decoded :=
  let d : Decoded := ⟨0, headParsed, { reader with record := { reader.record with ref := -1 } }, []⟩
  match vp9SuperframeSplitFilter data dataSize with
  | .error e => { d with ret := e }
  | .ok s => decodeFrames data s.prefixSize (s.sizes.take s.nbFrames) s.nextFrameOffset d

end Filter

/-! ## What a buffer holds -/

section Holds

variable (data : Bytes) (dataSize : Nat)

/-- The buffer ends with an index: both its markers are there. -/
def IndexFound : Prop :=
  isMarker (lastByte data dataSize) = true ∧ idxSize (lastByte data dataSize) ≤ dataSize ∧
    (data (dataSize - idxSize (lastByte data dataSize))).toNat = lastByte data dataSize

instance : Decidable (IndexFound data dataSize) := inferInstanceAs (Decidable (_ ∧ _))

/-- The sizes from a place of the index on. -/
def entriesFrom (width : Nat) : Nat → Nat → List Nat
  | 0, _ => []
  | n + 1, idx => littleEndian data idx width :: entriesFrom width n (idx + width)

/-- The sizes in the index. -/
def indexEntries : List Nat :=
  entriesFrom data (lengthSize (lastByte data dataSize)) (markedFrames (lastByte data dataSize))
    (dataSize + 1 - idxSize (lastByte data dataSize))

/-- The frames fit in front of the index. -/
def EntriesFit : Prop :=
  (indexEntries data dataSize).sum ≤ dataSize - idxSize (lastByte data dataSize)

instance : Decidable (EntriesFit data dataSize) := inferInstanceAs (Decidable (_ ≤ _))

/-- The sizes of the frames of the buffer. -/
def ownSizes : List Nat :=
  if IndexFound data dataSize then indexEntries data dataSize else [dataSize]

/-- The header of a frame, which may be behind a prefix. -/
def ownHeader (start size : Nat) : Attempt :=
  if 16 ≤ size ∧ hasPrefixTag data start = true then ⟨start + 16, size - 16⟩ else ⟨start, size⟩

/-- The headers of frames that follow each other. -/
def ownHeaders : Nat → List Nat → List Attempt
  | _, [] => []
  | start, size :: sizes => ownHeader data start size :: ownHeaders (start + size) sizes

/-- The header is parsed, whatever was parsed before. -/
def Parses (a : Attempt) : Prop := headerRet (fun k => data (a.start + k)) a.size ⟨0, {}⟩ = 0

instance : DecidablePred (Parses data) := fun _ => inferInstanceAs (Decidable (_ = _))

/-- The headers up to the first one that is parsed, with it. -/
def upToFirst : List Attempt → List Attempt
  | [] => []
  | a :: as => a :: if Parses data a then [] else upToFirst as

/-- The split is that of the index, or there is one frame; the headers of the frames are tried from the
first one on until one is parsed; and without one there is no success. -/
structure ParsesFrames (headParsed : Bool) (reader : Reader Vp9Context) : Prop where
  split : ∀ s, vp9SuperframeSplitFilter data dataSize = .ok s →
    (IndexFound data dataSize ∧ EntriesFit data dataSize ∧
      s.sizes.take s.nbFrames = (indexEntries data dataSize).map Nat.cast ∧
      s.nbFrames = (indexEntries data dataSize).length) ∨
    (s.nbFrames = 1 ∧ s.sizes.take 1 = [(dataSize : Int)])
  headers : (∃ s, vp9SuperframeSplitFilter data dataSize = .ok s) →
    (vp9DecodeExtradataPs data dataSize headParsed reader).attempts =
      upToFirst data (ownHeaders data 0 (ownSizes data dataSize))
  success : (vp9DecodeExtradataPs data dataSize headParsed reader).ret = 0 →
    ∃ a ∈ (vp9DecodeExtradataPs data dataSize headParsed reader).attempts, Parses data a

end Holds

/-! ## What a header returns -/

section Blindness

variable (data : Bytes)

theorem blind_getBits (n : Nat) : Blind (getBits data n) := blind_next _ n

theorem blind_getBits1 : Blind (getBits1 data) := blind_next _ 1

theorem blind_readDepth (profile : Nat) : Blind (readDepth data profile) :=
  .ite (blind_pure _) (.bind (blind_getBits1 data) fun _ => blind_pure _)

theorem blind_readColorspaceDetails (profile : Nat) : Blind (readColorspaceDetails data profile) := by
  refine .bind (blind_readDepth data profile) fun bits => ?_
  refine .bind (blind_note _) fun _ => .bind (blind_getBits data 3) fun _ => .ite (.ite ?_ (blind_fail _)) ?_
  · exact .bind (blind_getBits1 data) fun _ => .ite (blind_fail _) (blind_pure _)
  · refine .bind (blind_getBits1 data) fun _ => .ite ?_ (blind_note _)
    refine .bind (blind_getBits1 data) fun ssH => .bind (blind_getBits1 data) fun ssV => ?_
    refine .bind (blind_note _) fun _ => .ite (blind_fail _) ?_
    exact .bind (blind_getBits1 data) fun _ => .ite (blind_fail _) (blind_pure _)

theorem blind_readFrameSize : Blind (readFrameSize data) := by
  refine .bind (blind_getBits data 16) fun _ => .bind (blind_getBits data 16) fun _ => ?_
  refine .bind (blind_note _) fun _ => .bind (blind_getBits1 data) fun _ => .ite ?_ (blind_note _)
  exact .bind (blind_getBits data 16) fun _ => .bind (blind_getBits data 16) fun _ => blind_note _

theorem blind_readInterFrame (errorres : Bool) : Blind (readInterFrame data errorres) := by
  refine .bind (blind_getBits data 8) fun _ => ?_
  refine .bind (blind_getBits data 3) fun _ => .bind (blind_getBits1 data) fun _ => ?_
  refine .bind (blind_getBits data 3) fun _ => .bind (blind_getBits1 data) fun _ => ?_
  refine .bind (blind_getBits data 3) fun _ => .bind (blind_getBits1 data) fun _ => ?_
  exact .bind (blind_note _) fun _ => blind_fail _

theorem blind_readIntraColors (profile : Nat) : Blind (readIntraColors data profile) :=
  .ite (blind_readColorspaceDetails data profile) (blind_note _)

theorem blind_readIntraFrame (profile : Nat) : Blind (readIntraFrame data profile) := by
  refine .bind (blind_getBits data 24) fun _ => .ite (blind_fail _) ?_
  refine .bind (blind_readIntraColors data profile) fun _ => ?_
  exact .bind (blind_getBits data 8) fun _ => .bind (blind_note _) fun _ => blind_readFrameSize data

theorem blind_readKeyFrame (profile : Nat) : Blind (readKeyFrame data profile) := by
  refine .bind (blind_getBits data 24) fun _ => .ite (blind_fail _) ?_
  refine .bind (blind_readColorspaceDetails data profile) fun _ => ?_
  exact .bind (blind_note _) fun _ => blind_readFrameSize data

theorem blind_readCodedFrame (profile : Nat) : Blind (readCodedFrame data profile) := by
  refine .bind (blind_getBits1 data) fun _ => .bind (blind_getBits1 data) fun _ => ?_
  refine .bind (blind_getBits1 data) fun _ => .bind (blind_note _) fun _ => ?_
  refine .ite (blind_readKeyFrame data profile) ?_
  refine .bind (.ite (blind_getBits1 data) (blind_pure _) : Blind (readIntraonly data _)) fun _ => ?_
  refine .bind (.ite (blind_pure _) (blind_getBits data 2) : Blind (readResetctx data _)) fun _ => ?_
  refine .bind (blind_note _) fun _ => ?_
  exact .ite (blind_readIntraFrame data profile) (blind_readInterFrame data _)

theorem blind_readProfile : Blind (readProfile data) := by
  refine .bind (blind_getBits1 data) fun _ => .bind (blind_getBits1 data) fun _ => ?_
  exact .ite (.bind (blind_getBits1 data) fun _ => blind_pure _) (blind_pure _)

theorem blind_readHeader : Blind (readHeader data) := by
  refine .bind (blind_getBits data 2) fun _ => .ite (blind_fail _) ?_
  refine .bind (blind_readProfile data) fun profile => ?_
  refine .ite (blind_fail _) (.bind (blind_note _) fun _ => .bind (blind_getBits1 data) fun _ => ?_)
  exact .ite (.bind (blind_getBits data 3) fun _ => blind_note _) (blind_readCodedFrame data profile)

/-- The return value depends on the bytes and the size alone. -/
theorem headerRet_eq (size : Int) (s t : Reader Vp9Context) :
    headerRet data size s = headerRet data size t := by
  have hblind : Blind (if size < 0 ∨ size * 8 ≥ INT_MAX - 512 then fail (-1) else readHeader data) :=
    .ite (blind_fail _) (blind_readHeader data)
  have hret : (decodeFrameHeader data size s).1 = (decodeFrameHeader data size t).1 :=
    hblind.rewound s t
  rw [headerRet, headerRet, hret]

end Blindness

/-! ## What the filter makes of a buffer -/

section Index

variable {data : Bytes} {dataSize : Nat}

theorem frameSizeBits_eq (data : Bytes) (idx : Nat) :
    ∀ j, frameSizeBits data idx j = littleEndian data idx j
  | 0 => rfl
  | j + 1 => by
    have hpow : (256 : Nat) ^ j = 2 ^ (j * 8) := by rw [Nat.mul_comm, Nat.pow_mul]
    have hlt := littleEndian_lt data idx j
    rw [hpow] at hlt
    rw [frameSizeBits, frameSizeBits_eq data idx j, littleEndian, Nat.or_comm,
      ← Nat.shiftLeft_add_eq_or_of_lt hlt, Nat.shiftLeft_eq, hpow, Nat.add_comm]

/-- The loop accepts the sizes exactly when they fit, and then they are those of the index. -/
theorem frameSizes_eq {width : Nat} (hwidth : width ≤ 4) {limit : Int} (hlimit : limit < 2147483648) :
    ∀ n idx (total : Int), 0 ≤ total → total ≤ limit →
      frameSizes data width limit n idx total =
        if total + ((entriesFrom data width n idx).sum : Nat) ≤ limit then
          .ok ((entriesFrom data width n idx).map Nat.cast,
            total + ((entriesFrom data width n idx).sum : Nat))
        else .error (-EINVAL)
  | 0, idx, total, _, hle => by
    have hsum : total + (([] : List Nat).sum : Nat) = total := by simp
    rw [frameSizes, entriesFrom, hsum, if_pos hle]
    rfl
  | n + 1, idx, total, h0, hle => by
    have hlt : littleEndian data idx width < 4294967296 :=
      (littleEndian_lt data idx width).trans_le (Nat.pow_le_pow_right (by decide) hwidth)
    rw [frameSizes, frameSizeBits_eq, entriesFrom, List.sum_cons, Nat.cast_add]
    generalize littleEndian data idx width = size at hlt
    by_cases hsize : size < 2147483648
    · rw [s32_of_range (by omega) (by omega)]
      by_cases hfits : total + (size : Int) ≤ limit
      · have hrec := frameSizes_eq hwidth hlimit n (idx + width) (total + size) (by omega) hfits
        have hgo : ¬ ((size : Int) < 0 ∨ total + (size : Int) > limit) := by omega
        by_cases hrest : total + (size + ((entriesFrom data width n (idx + width)).sum : Int)) ≤ limit
        · simp only [hgo, if_false, hrec, add_assoc, hrest, if_true]
          rfl
        · simp only [hgo, if_false, hrec, add_assoc, hrest]
      · rw [if_pos (.inr (not_le.mp hfits)), if_neg (by omega)]
    · have hneg : s32 (size : Int) < 0 := by
        rw [s32]
        omega
      rw [if_pos (.inl hneg), if_neg (by omega)]

theorem length_entriesFrom (width : Nat) :
    ∀ n idx, (entriesFrom data width n idx).length = n
  | 0, _ => rfl
  | n + 1, idx => congrArg (· + 1) (length_entriesFrom width n (idx + width))

theorem lengthSize_le (marker : Nat) : lengthSize marker ≤ 4 := by
  rw [lengthSize]
  omega

theorem length_indexEntries :
    (indexEntries data dataSize).length = markedFrames (lastByte data dataSize) :=
  length_entriesFrom _ _ _

/-- What the filter returns. -/
inductive Filtered (data : Bytes) (dataSize : Nat) : Except Int Split → Prop
  | single (s : Split) (hmarker : isMarker (lastByte data dataSize) = false)
    (htag : s.prefixSize = if hasPrefixTag data 0 then 16 else 0) (hoffset : s.nextFrameOffset = 0)
    (hnb : s.nbFrames = 1) (hsizes : s.sizes.take 1 = [(dataSize : Int)]) :
    Filtered data dataSize (.ok s)
  | lost (s : Split) (hmarker : isMarker (lastByte data dataSize) = true)
    (hfound : ¬ IndexFound data dataSize) (hnb : s.nbFrames = 0) : Filtered data dataSize (.ok s)
  | refused (hfound : IndexFound data dataSize) (hfit : ¬ EntriesFit data dataSize) :
    Filtered data dataSize (.error (-EINVAL))
  | split (s : Split) (hfound : IndexFound data dataSize) (hfit : EntriesFit data dataSize)
    (htag : s.prefixSize = if hasPrefixTag data 0 then 16 else 0) (hoffset : s.nextFrameOffset = 0)
    (hnb : s.nbFrames = (indexEntries data dataSize).length)
    (hsizes : s.sizes.take s.nbFrames = (indexEntries data dataSize).map Nat.cast) :
    Filtered data dataSize (.ok s)

theorem filter_filtered (hint : dataSize < 2147483648) :
    Filtered data dataSize (vp9SuperframeSplitFilter data dataSize) := by
  rw [vp9SuperframeSplitFilter]
  by_cases hmarker : isMarker (lastByte data dataSize) = true
  · by_cases hfound : IndexFound data dataSize
    · have hsize := hfound.2.1
      have hsizes := @frameSizes_eq data _ (lengthSize_le (lastByte data dataSize))
        ((dataSize : Int) - idxSize (lastByte data dataSize)) (by omega)
        (markedFrames (lastByte data dataSize)) (dataSize + 1 - idxSize (lastByte data dataSize)) 0
        le_rfl (by omega)
      simp only [hmarker, if_true, ge_iff_le, hfound.2, and_self, hsizes, zero_add]
      by_cases hfit : EntriesFit data dataSize
      · have hle : ((indexEntries data dataSize).sum : Int) ≤
            (dataSize : Int) - idxSize (lastByte data dataSize) := by
          have h := hfit
          rw [EntriesFit] at h
          omega
        rw [indexEntries] at hle
        rw [if_pos hle]
        refine .split _ hfound hfit rfl rfl length_indexEntries.symm ?_
        refine List.take_left' ?_
        rw [List.length_map]
        exact length_entriesFrom _ _ _
      · have hnot : ¬ ((indexEntries data dataSize).sum : Int) ≤
            (dataSize : Int) - idxSize (lastByte data dataSize) := by
          have h := hfit
          rw [EntriesFit] at h
          omega
        rw [indexEntries] at hnot
        rw [if_neg hnot]
        exact .refused hfound hfit
    · have hno : ¬ (dataSize ≥ idxSize (lastByte data dataSize) ∧
          (data (dataSize - idxSize (lastByte data dataSize))).toNat = lastByte data dataSize) :=
        fun h => hfound ⟨hmarker, h⟩
      simp only [hmarker, if_true, hno, if_false]
      exact .lost _ hmarker hfound rfl
  · simp only [hmarker]
    exact .single _ (by simpa using hmarker) rfl rfl rfl rfl

end Index

/-! ## The headers that are tried -/

section Headers

variable {data : Bytes} {dataSize : Nat} {headParsed : Bool} {reader : Reader Vp9Context}

/-- The headers that the loop tries when none is parsed: the offset of a frame is the size of the one
before. -/
def triedHeaders (prefixSize : Nat) : Nat → List Nat → List Attempt
  | _, [] => []
  | offset, size :: sizes =>
    ⟨offset + prefixSize, (size : Int) - prefixSize⟩ :: triedHeaders prefixSize size sizes

theorem decodeFrames_spec {prefixSize : Nat} (htag : prefixSize ≤ 16) :
    ∀ (sizes : List Nat), (∀ size ∈ sizes, size < 2147483648) → ∀ (offset : Nat) (d : Decoded),
      (decodeFrames data prefixSize (sizes.map Nat.cast) offset d).attempts =
          d.attempts ++ upToFirst data (triedHeaders prefixSize offset sizes) ∧
        ((decodeFrames data prefixSize (sizes.map Nat.cast) offset d).ret = 0 →
          (sizes = [] ∧ d.ret = 0) ∨
            ∃ a ∈ upToFirst data (triedHeaders prefixSize offset sizes), Parses data a)
  | [], _, offset, d => ⟨(List.append_nil _).symm, fun h => .inl ⟨rfl, h⟩⟩
  | size :: sizes, hlt, offset, d => by
    have hsize := hlt size List.mem_cons_self
    have hlen : s32 (u32 ((size : Int) - prefixSize)) = (size : Int) - prefixSize := by
      simp only [s32, u32]
      omega
    have hnext : (u32 (u32 ((size : Int) - prefixSize) + prefixSize)).toNat = size := by
      simp only [u32]
      omega
    have hret : headerRet (fun k => data (offset + prefixSize + k)) ((size : Int) - prefixSize) d.reader =
        headerRet (fun k => data (offset + prefixSize + k)) ((size : Int) - prefixSize) ⟨0, {}⟩ :=
      headerRet_eq _ _ _ _
    rw [List.map_cons, decodeFrames, triedHeaders, upToFirst]
    simp only [hlen, hnext, hret]
    by_cases hparses : Parses data ⟨offset + prefixSize, (size : Int) - prefixSize⟩
    · have hzero : headerRet (fun k => data (offset + prefixSize + k)) ((size : Int) - prefixSize)
          ⟨0, {}⟩ = 0 := hparses
      simp only [hzero, hparses, if_true, true_and]
      exact fun _ => .inr ⟨_, List.mem_cons_self, hparses⟩
    · have hne : ¬ headerRet (fun k => data (offset + prefixSize + k)) ((size : Int) - prefixSize)
          ⟨0, {}⟩ = 0 := hparses
      simp only [hne, hparses, if_false]
      obtain ⟨hattempts, hsuccess⟩ := decodeFrames_spec htag sizes
        (fun s hs => hlt s (List.mem_cons_of_mem _ hs)) size _
      refine ⟨?_, fun h => ?_⟩
      · rw [hattempts, List.append_assoc]
        rfl
      · obtain ⟨-, hzero⟩ | ⟨a, ha, hparsed⟩ := hsuccess h
        · exact absurd hzero hne
        · exact .inr ⟨a, List.mem_cons_of_mem _ ha, hparsed⟩

/-- The frame at `start` is where the loop looks for it, and is taken to have a prefix when it has one.
The last frame before it has the size `offset`. -/
def Found (data : Bytes) (offset start size : Nat) : Prop :=
  offset = start ∧ (hasPrefixTag data 0 = true ↔ 16 ≤ size ∧ hasPrefixTag data start = true)

theorem tried_eq_own {offset start size prefixSize : Nat}
    (htag : prefixSize = if hasPrefixTag data 0 then 16 else 0) :
    (⟨offset + prefixSize, (size : Int) - prefixSize⟩ : Attempt) = ownHeader data start size ↔
      Found data offset start size := by
  have hown : ownHeader data start size =
      ⟨start + if 16 ≤ size ∧ hasPrefixTag data start = true then 16 else 0,
        (size : Int) - if 16 ≤ size ∧ hasPrefixTag data start = true then 16 else 0⟩ := by
    rw [ownHeader]
    split
    · rfl
    · rw [Nat.add_zero, Int.sub_zero]
  have hsame : ((if hasPrefixTag data 0 = true then 16 else 0) =
      if 16 ≤ size ∧ hasPrefixTag data start = true then 16 else 0) ↔
        (hasPrefixTag data 0 = true ↔ 16 ≤ size ∧ hasPrefixTag data start = true) := by
    by_cases h : hasPrefixTag data 0 = true <;>
      by_cases h' : 16 ≤ size ∧ hasPrefixTag data start = true <;> simp [h, h']
  rw [hown, Found, ← hsame, ← htag, Attempt.mk.injEq]
  split <;> omega

/-- Where the loop tries the own headers of the frames, each frame it comes to is found. -/
theorem upToFirst_tried_iff {prefixSize : Nat}
    (htag : prefixSize = if hasPrefixTag data 0 then 16 else 0) :
    ∀ (sizes : List Nat) (offset start : Nat),
      upToFirst data (triedHeaders prefixSize offset sizes) =
          upToFirst data (ownHeaders data start sizes) ↔
        ∀ before size after, sizes = before ++ size :: after →
          (∀ a ∈ ownHeaders data start before, ¬ Parses data a) →
            Found data (before.getLastD offset) (start + before.sum) size
  | [], offset, start => by
    refine iff_of_true rfl fun before size after h => ?_
    simp at h
  | size :: sizes, offset, start => by
    have ih := upToFirst_tried_iff htag sizes size (start + size)
    have hhead := @tried_eq_own data offset start size prefixSize htag
    rw [triedHeaders, ownHeaders, upToFirst, upToFirst, List.cons.injEq, hhead]
    constructor
    · rintro ⟨hfound, htail⟩ before size' after hsplit hfail
      rw [hhead.mpr hfound] at htail
      cases before with
      | nil =>
        obtain ⟨rfl, -⟩ := List.cons.inj hsplit
        exact hfound
      | cons b before =>
        obtain ⟨rfl, hrest⟩ := List.cons.inj hsplit
        rw [ownHeaders, List.forall_mem_cons] at hfail
        rw [if_neg hfail.1, if_neg hfail.1] at htail
        have h := ih.mp htail before size' after hrest hfail.2
        rwa [List.sum_cons, ← Nat.add_assoc, List.getLastD_cons]
    · intro h
      have hfound := h [] size sizes rfl fun _ ha => absurd ha List.not_mem_nil
      refine ⟨hfound, ?_⟩
      rw [hhead.mpr hfound]
      split
      · rfl
      · next hfail =>
        refine ih.mpr fun before size' after hsplit hbefore => ?_
        have hnext := h (size :: before) size' after (congrArg (size :: ·) hsplit)
          (List.forall_mem_cons.mpr ⟨hfail, hbefore⟩)
        rwa [List.sum_cons, ← Nat.add_assoc, List.getLastD_cons] at hnext

theorem ownSizes_ne_nil : ownSizes data dataSize ≠ [] := by
  rw [ownSizes]
  split
  · refine List.ne_nil_of_length_pos ?_
    rw [length_indexEntries, markedFrames]
    omega
  · exact List.cons_ne_nil _ _

theorem ownSizes_lt (hint : dataSize < 2147483648)
    (hfit : IndexFound data dataSize → EntriesFit data dataSize) :
    ∀ size ∈ ownSizes data dataSize, size < 2147483648 := by
  intro size hsize
  rw [ownSizes] at hsize
  split at hsize
  · next hfound =>
    have hle := List.le_sum_of_mem hsize
    have hsum := hfit hfound
    rw [EntriesFit] at hsum
    omega
  · rw [List.mem_singleton.mp hsize]
    exact hint

/-- What the decoder does when the split has the sizes of the frames. -/
theorem decode_spec {s : Split} (hint : dataSize < 2147483648)
    (hfit : IndexFound data dataSize → EntriesFit data dataSize)
    (hs : vp9SuperframeSplitFilter data dataSize = .ok s)
    (htag : s.prefixSize = if hasPrefixTag data 0 then 16 else 0) (hoffset : s.nextFrameOffset = 0)
    (hsizes : s.sizes.take s.nbFrames = (ownSizes data dataSize).map Nat.cast) :
    (vp9DecodeExtradataPs data dataSize headParsed reader).attempts =
        upToFirst data (triedHeaders s.prefixSize 0 (ownSizes data dataSize)) ∧
      ((vp9DecodeExtradataPs data dataSize headParsed reader).ret = 0 →
        ∃ a ∈ (vp9DecodeExtradataPs data dataSize headParsed reader).attempts, Parses data a) := by
  have hle : s.prefixSize ≤ 16 := by
    rw [htag]
    split <;> decide
  have hrun : vp9DecodeExtradataPs data dataSize headParsed reader =
      decodeFrames data s.prefixSize ((ownSizes data dataSize).map Nat.cast) 0
        ⟨0, headParsed, { reader with record := { reader.record with ref := -1 } }, []⟩ := by
    rw [vp9DecodeExtradataPs, hs, ← hsizes, ← hoffset]
  obtain ⟨hattempts, hsuccess⟩ := decodeFrames_spec hle (ownSizes data dataSize)
    (ownSizes_lt hint hfit) 0
    ⟨0, headParsed, { reader with record := { reader.record with ref := -1 } }, []⟩
  rw [hrun, hattempts, List.nil_append]
  refine ⟨rfl, fun hret => ?_⟩
  obtain ⟨hnil, -⟩ | h := hsuccess hret
  · exact absurd hnil ownSizes_ne_nil
  · exact h

/-- A last byte that has the form of a marker belongs to an index; and each frame that the decoder comes
to is found: before the one right before it there are no bytes, and it has a prefix exactly when the
buffer starts with one. -/
structure FramesFound (data : Bytes) (dataSize : Nat) : Prop where
  marked : isMarker (lastByte data dataSize) = true → IndexFound data dataSize
  found : (IndexFound data dataSize → EntriesFit data dataSize) →
    ∀ before size after, ownSizes data dataSize = before ++ size :: after →
      (∀ a ∈ ownHeaders data 0 before, ¬ Parses data a) →
        Found data (before.getLastD 0) before.sum size

/-- The split is right and the headers of the frames are tried exactly when all frames are found. -/
theorem parsesFrames_iff (hint : dataSize < 2147483648) :
    ParsesFrames data dataSize headParsed reader ↔ FramesFound data dataSize := by
  have hfiltered := @filter_filtered data dataSize hint
  generalize hr : vp9SuperframeSplitFilter data dataSize = r at hfiltered
  have hown {s : Split} (htag : s.prefixSize = if hasPrefixTag data 0 then 16 else 0) :=
    @upToFirst_tried_iff data s.prefixSize htag (ownSizes data dataSize) 0 0
  simp only [Nat.zero_add] at hown
  cases hfiltered with
  | single s hmarker htag hoffset hnb hsizes =>
    have hnot : ¬ IndexFound data dataSize := fun h =>
      Bool.false_ne_true (hmarker.symm.trans h.1)
    have hfit : IndexFound data dataSize → EntriesFit data dataSize := fun h => absurd h hnot
    have htake : s.sizes.take s.nbFrames = (ownSizes data dataSize).map Nat.cast := by
      rw [hnb, hsizes, ownSizes, if_neg hnot]
      rfl
    obtain ⟨hattempts, hsuccess⟩ := @decode_spec data dataSize headParsed reader s hint hfit hr htag
      hoffset htake
    constructor
    · intro h
      have hheaders := h.headers ⟨s, hr⟩
      rw [hattempts] at hheaders
      exact ⟨fun hm => absurd (hmarker.symm.trans hm) Bool.false_ne_true,
        fun _ => (hown htag).mp hheaders⟩
    · intro h
      refine ⟨fun s' hs' => ?_, fun _ => ?_, hsuccess⟩
      · obtain rfl := Except.ok.inj (hr.symm.trans hs')
        exact .inr ⟨hnb, hsizes⟩
      · rw [hattempts]
        exact (hown htag).mpr (h.found hfit)
  | lost s hmarker hfound hnb =>
    refine iff_of_false (fun h => ?_) fun h => hfound (h.marked hmarker)
    obtain ⟨hindex, -⟩ | ⟨hone, -⟩ := h.split s hr
    · exact hfound hindex
    · rw [hnb] at hone
      cases hone
  | refused hfound hfit =>
    refine iff_of_true ⟨fun s hs => ?_, fun ⟨s, hs⟩ => ?_, fun hret => ?_⟩
      ⟨fun _ => hfound, fun h => absurd (h hfound) hfit⟩
    · cases hr.symm.trans hs
    · cases hr.symm.trans hs
    · have hne : -EINVAL ≠ 0 := by decide
      rw [vp9DecodeExtradataPs, hr] at hret
      exact absurd hret hne
  | split s hfound hfit htag hoffset hnb hsizes =>
    have hown' : ownSizes data dataSize = indexEntries data dataSize := if_pos hfound
    obtain ⟨hattempts, hsuccess⟩ := @decode_spec data dataSize headParsed reader s hint
      (fun _ => hfit) hr htag hoffset (hown' ▸ hsizes)
    constructor
    · intro h
      have hheaders := h.headers ⟨s, hr⟩
      rw [hattempts] at hheaders
      exact ⟨fun _ => hfound, fun _ => (hown htag).mp hheaders⟩
    · intro h
      refine ⟨fun s' hs' => ?_, fun _ => ?_, hsuccess⟩
      · obtain rfl := Except.ok.inj (hr.symm.trans hs')
        exact .inl ⟨hfound, hfit, hsizes, hnb⟩
      · rw [hattempts]
        exact (hown htag).mpr (h.found fun _ => hfit)

end Headers

/-! ## Buffers -/

/-- The memory of a buffer, with zeros behind it. -/
def memoryOf (bytes : List UInt8) : Bytes := fun k => bytes.getD k 0

/-- A hidden frame, whose header does not say its size, a key frame of 1920x1080, and their index. -/
def hiddenAndKey : List UInt8 :=
  0x84 :: List.replicate 9 0 ++ [0x82, 0x49, 0x83, 0x42, 0x00, 0x77, 0xf0, 0x43, 0x70, 0] ++
    [0xc1, 10, 10, 0xc1]

/-- The decoder passes over the hidden frame and parses the header of the key frame. -/
theorem parsesFrames_iff_hidden :
    ParsesFrames (memoryOf hiddenAndKey) 24 false ⟨0, {}⟩ ∧
      let decoded := vp9DecodeExtradataPs (memoryOf hiddenAndKey) 24 false ⟨0, {}⟩
      (decoded.attempts, decoded.ret, decoded.headParsed, decoded.reader.record.width,
        decoded.reader.record.height) = ([⟨0, 10⟩, ⟨10, 10⟩], 0, true, 1920, 1080) := by
  refine ⟨(parsesFrames_iff (by decide)).mpr ⟨fun _ => by decide +kernel,
    fun _ before size after hsplit _ => ?_⟩, by decide +kernel⟩
  have hown : ownSizes (memoryOf hiddenAndKey) 24 = [10, 10] := by decide +kernel
  rw [hown] at hsplit
  obtain ⟨rfl, hfirst⟩ | ⟨rest, rfl, hrest⟩ := List.cons_eq_append_iff.mp hsplit
  · obtain ⟨rfl, -⟩ := List.cons.inj hfirst
    exact ⟨rfl, by decide +kernel⟩
  · obtain ⟨rfl, hsecond⟩ | ⟨_, -, hnil⟩ := List.cons_eq_append_iff.mp hrest
    · obtain ⟨rfl, -⟩ := List.cons.inj hsecond
      exact ⟨rfl, by decide +kernel⟩
    · exact absurd hnil.symm (List.append_ne_nil_of_right_ne_nil _ (List.cons_ne_nil _ _))

/-- The last byte of the buffer has the form of a marker, but the first one of the index it would belong
to is another. -/
def accidentalMarker : List UInt8 := List.replicate 19 0 ++ [0xc0]

/-- No frame is found, no header is tried, and the decoder reports success. -/
theorem accidental_marker : ¬ ∀ headParsed reader,
    ParsesFrames (memoryOf accidentalMarker) 20 headParsed reader := by
  intro h
  obtain ⟨a, ha, -⟩ := (h false ⟨0, {}⟩).success (by decide +kernel)
  have hnone : (vp9DecodeExtradataPs (memoryOf accidentalMarker) 20 false ⟨0, {}⟩).attempts = [] := by
    decide +kernel
  rw [hnone] at ha
  exact absurd ha List.not_mem_nil

/-- Three frames of ten bytes and their index. The third one is looked for where the second one is. -/
def threeFrames : List UInt8 := List.replicate 30 0 ++ [0xc2, 10, 10, 10, 0xc2]

example : (vp9DecodeExtradataPs (memoryOf threeFrames) 35 false ⟨0, {}⟩).attempts =
    [⟨0, 10⟩, ⟨10, 10⟩, ⟨10, 10⟩] := by decide +kernel

end MediaModules.Vp9Parser
