import Mathlib.Algebra.Order.Ring.Nat
import Mathlib.Tactic.Common

/-!
# PES packets

`pes_pkt_parse` reads the header of a packet that was put together from TS packets. The length of
the header and its flags are bytes of the packet, and so are the five bytes of a timestamp.
-/
namespace MediaModules.Demux

/-- `SWDMX_OK`. -/
abbrev swdmxOk : Int := 1

/-- `SWDMX_ERR`. -/
abbrev swdmxErr : Int := -1

/-- `PES_PRIVATE_STREAM_ID`. -/
abbrev pesPrivateStreamId : UInt8 := 0xfc

/-- The other streams without the optional header. -/
def headerlessIds : List UInt8 := [0xbc, 0xbf, 0xf0, 0xf1, 0xff, 0xf2, 0xf8, 0xbe]

/-- `struct swdmx_pespacket`. `data` is the whole buffer, so that its length is `data_cap`, and
`payload` is the offset from its start. -/
structure Pespacket where
  valid : Bool
  hasPts : Bool
  streamId : UInt8
  scramble : UInt8
  pts : UInt64
  data : List UInt8
  payload : Nat
  dataLen : Nat
  payloadLen : Int
  deriving Repr, DecidableEq

/-! ## Parsing -/

/-- The timestamp of the optional header. -/
def headerPts (h0 h1 h2 h3 h4 : UInt8) : UInt64 :=
  ((h0 &&& 0x0e).toUInt64 <<< 29) ||| (h1.toUInt64 <<< 22) ||| ((h2 &&& 0xfe).toUInt64 <<< 14) |||
    (h3.toUInt64 <<< 7) ||| ((h4 &&& 0xfe).toUInt64 >>> 1)

/-- The timestamp of a private packet. -/
def privatePts (h0 h1 h2 h3 : UInt8) : UInt64 :=
  (h0.toUInt64 <<< 24) ||| (h1.toUInt64 <<< 16) ||| (h2.toUInt64 <<< 8) ||| (h3.toUInt64 <<< 7)

/-- The payload after an optional header with `hlen` bytes behind its three fixed ones. -/
def headerDone (hlen : UInt8) (pkt : Pespacket) : Pespacket × Int :=
  ({ pkt with payload := 9 + hlen.toNat, payloadLen := pkt.dataLen - 9 - hlen.toNat }, swdmxOk)

/-- The branch of the streams with the optional header. A byte behind the buffer is `none`. -/
def parseHeader (pkt : Pespacket) : Option (Pespacket × Int) :=
  let left : Int := pkt.dataLen - 6
  if left < 3 then some (pkt, swdmxErr)
  else do
    let scramble : UInt8 ← pkt.data[6]?
    let flags : UInt8 ← pkt.data[7]?
    let hlen : UInt8 ← pkt.data[8]?
    let pkt := { pkt with scramble := (scramble >>> 4) &&& 3 }
    if flags &&& 0x80 ≠ 0 then
      if hlen.toNat < 5 then some (pkt, swdmxErr)
      else do
        let h0 ← pkt.data[9]?
        let h1 ← pkt.data[10]?
        let h2 ← pkt.data[11]?
        let h3 ← pkt.data[12]?
        let h4 ← pkt.data[13]?
        some (headerDone hlen { pkt with hasPts := true, pts := headerPts h0 h1 h2 h3 h4 })
    else some (headerDone hlen pkt)

/-- The branch of the private stream. The header length is the rest of the packet in a `u8`. -/
def parsePrivate (pkt : Pespacket) : Option (Pespacket × Int) :=
  let left : Int := pkt.dataLen - 6
  let hlen := (left % 256).toNat
  if left < 3 then some (pkt, swdmxErr)
  else do
    let h0 ← pkt.data[6]?
    let h1 ← pkt.data[7]?
    let h2 ← pkt.data[8]?
    let h3 ← pkt.data[9]?
    some ({ pkt with
      hasPts := true
      pts := privatePts h0 h1 h2 h3
      payload := 6 + hlen
      payloadLen := left - hlen }, swdmxOk)

/-- `pes_pkt_parse`. -/
def pesPktParse (pkt : Pespacket) : Option (Pespacket × Int) :=
  if pkt.dataLen < 6 then some (pkt, swdmxErr)
  else do
    let p0 ← pkt.data[0]?
    let p1 ← pkt.data[1]?
    let p2 ← pkt.data[2]?
    let streamId ← pkt.data[3]?
    if p0 ≠ 0 ∨ p1 ≠ 0 ∨ p2 ≠ 1 then some (pkt, swdmxErr)
    else
      let pkt := { pkt with streamId := streamId }
      if streamId ∉ headerlessIds ∧ streamId ≠ pesPrivateStreamId then parseHeader pkt
      else if streamId = pesPrivateStreamId then parsePrivate pkt
      else some (pkt, swdmxErr)

/-! ## What is read -/

/-- The packet in a buffer that ends with it. -/
def Pespacket.alone (pkt : Pespacket) : Pespacket := { pkt with data := pkt.data.take pkt.dataLen }

/-- The parser reads the packet only, and a payload it reports is the end of the packet. -/
structure ParsesInside (pkt : Pespacket) : Prop where
  reads : pesPktParse pkt.alone ≠ none
  payload : ∀ pkt', pesPktParse pkt = some (pkt', swdmxOk) →
    0 ≤ pkt'.payloadLen ∧ pkt'.payload + pkt'.payloadLen = pkt.dataLen

/-- The header of a packet ends in the packet, unless its length is refused, and a private packet
has not exactly three bytes after its prefix. -/
structure HeaderFits (data : List UInt8) : Prop where
  header : ∀ streamId b4 b5 b6 flags hlen rest,
    data = 0 :: 0 :: 1 :: streamId :: b4 :: b5 :: b6 :: flags :: hlen :: rest →
    streamId ∉ headerlessIds → streamId ≠ pesPrivateStreamId →
    (flags &&& 0x80 = 0 ∨ 5 ≤ hlen.toNat) → hlen.toNat ≤ rest.length
  secure : ∀ b4 b5 rest, data = 0 :: 0 :: 1 :: pesPrivateStreamId :: b4 :: b5 :: rest →
    rest.length ≠ 3

section

variable {pkt : Pespacket} {streamId b4 b5 b6 flags hlen : UInt8} {data rest : List UInt8}

theorem three_bytes (h : 3 ≤ data.length) : ∃ b0 b1 b2 rest, data = b0 :: b1 :: b2 :: rest := by
  match data, h with
  | b0 :: b1 :: b2 :: rest, _ => exact ⟨b0, b1, b2, rest, rfl⟩

theorem six_bytes (h : 6 ≤ data.length) :
    ∃ b0 b1 b2 b3 b4 b5 rest, data = b0 :: b1 :: b2 :: b3 :: b4 :: b5 :: rest := by
  obtain ⟨b0, b1, b2, data', rfl⟩ := three_bytes (Nat.le_trans (by decide : 3 ≤ 6) h)
  simp only [List.length_cons] at h
  obtain ⟨b3, b4, b5, rest, rfl⟩ := three_bytes (show 3 ≤ data'.length by omega)
  exact ⟨b0, b1, b2, b3, b4, b5, rest, rfl⟩

/-- The optional header of a packet of the stream. -/
theorem pesPktParse_header (hlen6 : 6 ≤ pkt.dataLen)
    (hd : pkt.data = 0 :: 0 :: 1 :: streamId :: rest) (hid : streamId ∉ headerlessIds)
    (hpriv : streamId ≠ pesPrivateStreamId) :
    pesPktParse pkt = parseHeader { pkt with streamId := streamId } := by
  unfold pesPktParse
  rw [if_neg (Nat.not_lt.mpr hlen6), hd]
  simp [hid, hpriv]

theorem pesPktParse_private (hlen6 : 6 ≤ pkt.dataLen)
    (hd : pkt.data = 0 :: 0 :: 1 :: pesPrivateStreamId :: rest) :
    pesPktParse pkt = parsePrivate { pkt with streamId := pesPrivateStreamId } := by
  unfold pesPktParse
  rw [if_neg (Nat.not_lt.mpr hlen6), hd]
  simp

section

variable (pkt) {c0 c1 c2 c3 c4 c5 : UInt8}
  (hd : pkt.data = c0 :: c1 :: c2 :: c3 :: c4 :: c5 :: b6 :: flags :: hlen :: rest)
  (h9 : 9 ≤ pkt.dataLen)

include hd h9

theorem parseHeader_refused (hf : flags &&& 0x80 ≠ 0) (hshort : hlen.toNat < 5) :
    parseHeader pkt = some ({ pkt with scramble := (b6 >>> 4) &&& 3 }, swdmxErr) := by
  have hleft : ¬ ((pkt.dataLen : Int) - 6 < 3) := by omega
  unfold parseHeader
  dsimp only
  rw [if_neg hleft, hd]
  simp [hf, hshort]

theorem parseHeader_stamped (hf : flags &&& 0x80 ≠ 0) (hlong : 5 ≤ hlen.toNat) :
    parseHeader pkt = (do
      let h0 ← rest[0]?
      let h1 ← rest[1]?
      let h2 ← rest[2]?
      let h3 ← rest[3]?
      let h4 ← rest[4]?
      some (headerDone hlen { pkt with
        scramble := (b6 >>> 4) &&& 3, hasPts := true, pts := headerPts h0 h1 h2 h3 h4 })) := by
  have hleft : ¬ ((pkt.dataLen : Int) - 6 < 3) := by omega
  unfold parseHeader
  dsimp only
  rw [if_neg hleft, hd]
  simp [hf, Nat.not_lt.mpr hlong]

theorem parseHeader_plain (hf : flags &&& 0x80 = 0) : parseHeader pkt =
    some (headerDone hlen { pkt with scramble := (b6 >>> 4) &&& 3 }) := by
  have hleft : ¬ ((pkt.dataLen : Int) - 6 < 3) := by omega
  unfold parseHeader
  dsimp only
  rw [if_neg hleft, hd]
  simp [hf]

end

theorem parsePrivate_eq (pkt : Pespacket) {c0 c1 c2 c3 c4 c5 h0 h1 h2 h3 : UInt8}
    (hd : pkt.data = c0 :: c1 :: c2 :: c3 :: c4 :: c5 :: h0 :: h1 :: h2 :: h3 :: rest)
    (h9 : 9 ≤ pkt.dataLen) : parsePrivate pkt = some ({ pkt with
      hasPts := true
      pts := privatePts h0 h1 h2 h3
      payload := 6 + ((pkt.dataLen - 6 : Int) % 256).toNat
      payloadLen := pkt.dataLen - 6 - ((pkt.dataLen - 6 : Int) % 256).toNat }, swdmxOk) := by
  have hleft : ¬ ((pkt.dataLen : Int) - 6 < 3) := by omega
  unfold parsePrivate
  dsimp only
  rw [if_neg hleft, hd]
  rfl

/-- A packet that ends before the fixed bytes of its header is refused. -/
theorem parse_tooShort (pkt : Pespacket) (h : pkt.dataLen < 9) :
    parseHeader pkt = some (pkt, swdmxErr) ∧ parsePrivate pkt = some (pkt, swdmxErr) := by
  have hleft : (pkt.dataLen : Int) - 6 < 3 := by omega
  exact ⟨if_pos hleft, if_pos hleft⟩

/-- In a buffer that ends with the packet: nothing behind it is read, and a payload ends with it. -/
def EndsInside (pkt : Pespacket) : Prop :=
  ∃ pkt' r, pesPktParse pkt = some (pkt', r) ∧
    (r = swdmxOk → 0 ≤ pkt'.payloadLen ∧ pkt'.payload + pkt'.payloadLen = pkt.dataLen)

/-- An error reports no payload. -/
theorem endsInside_of_err {pkt' : Pespacket} (h : pesPktParse pkt = some (pkt', swdmxErr)) :
    EndsInside pkt :=
  ⟨pkt', swdmxErr, h, fun hc => absurd hc (by decide)⟩

/-- A packet with an optional header, of which at least the fixed bytes are there. -/
theorem endsInside_header (h : pkt.dataLen = pkt.data.length)
    (hd : pkt.data = 0 :: 0 :: 1 :: streamId :: b4 :: b5 :: b6 :: flags :: hlen :: rest)
    (hid : streamId ∉ headerlessIds) (hpriv : streamId ≠ pesPrivateStreamId) :
    EndsInside pkt ↔ ((flags &&& 0x80 = 0 ∨ 5 ≤ hlen.toNat) → hlen.toNat ≤ rest.length) := by
  have hlen9 : pkt.dataLen = rest.length + 9 := by
    rw [h, hd]
    rfl
  have hparse := pesPktParse_header (by omega) hd hid hpriv
  have hdone (q : Pespacket) (hq : q.dataLen = pkt.dataLen) (hp : pesPktParse pkt =
      some (headerDone hlen q)) : EndsInside pkt ↔ hlen.toNat ≤ rest.length := by
    unfold EndsInside
    rw [hp]
    constructor
    · rintro ⟨pkt', r, heq, hin⟩
      obtain ⟨rfl, rfl⟩ := Prod.mk.inj (Option.some.inj heq)
      have h0 : 0 ≤ (q.dataLen : Int) - 9 - hlen.toNat := (hin rfl).1
      omega
    · intro hle
      refine ⟨_, _, rfl, fun _ => ⟨?_, ?_⟩⟩
      · show 0 ≤ (q.dataLen : Int) - 9 - hlen.toNat
        omega
      · show ((9 + hlen.toNat : Nat) : Int) + (q.dataLen - 9 - hlen.toNat) = pkt.dataLen
        omega
  by_cases hf : flags &&& 0x80 = 0
  · have hplain := parseHeader_plain { pkt with streamId := streamId } hd (by
      show 9 ≤ pkt.dataLen
      omega) hf
    refine (hdone _ ?_ (hparse.trans hplain)).trans ?_
    · rfl
    · exact ⟨fun hle _ => hle, fun hle => hle (.inl hf)⟩
  by_cases hshort : hlen.toNat < 5
  · have hrefused := parseHeader_refused { pkt with streamId := streamId } hd (by
      show 9 ≤ pkt.dataLen
      omega) hf hshort
    apply iff_of_true (endsInside_of_err (hparse.trans hrefused))
    intro hc
    rcases hc with hc | hc
    · exact absurd hc hf
    · omega
  · have hlong := Nat.not_lt.mp hshort
    have hstamped := hparse.trans (parseHeader_stamped { pkt with streamId := streamId } hd
      (by show 9 ≤ pkt.dataLen; omega) hf hlong)
    by_cases hfive : 5 ≤ rest.length
    · match rest, hfive with
      | h0 :: h1 :: h2 :: h3 :: h4 :: rest, _ =>
        refine (hdone _ ?_ hstamped).trans ?_
        · rfl
        · exact ⟨fun hle _ => hle, fun hle => hle (.inr hlong)⟩
    · have hnone : rest[4]? = none := List.getElem?_eq_none (by omega)
      refine iff_of_false ?_ fun hc => hfive (Nat.le_trans hlong (hc (.inr hlong)))
      rintro ⟨pkt', r, hp, -⟩
      rw [hstamped] at hp
      simp only [bind, Option.bind_eq_some_iff] at hp
      obtain ⟨-, -, -, -, -, -, -, -, h4, hh4, -⟩ := hp
      exact nomatch hnone.symm.trans hh4

theorem endsInside_private (h : pkt.dataLen = pkt.data.length)
    (hd : pkt.data = 0 :: 0 :: 1 :: pesPrivateStreamId :: b4 :: b5 :: rest) :
    EndsInside pkt ↔ rest.length ≠ 3 := by
  have hlen6 : pkt.dataLen = rest.length + 6 := by
    rw [h, hd]
    rfl
  have hparse := pesPktParse_private (by omega) hd
  by_cases hshort : rest.length < 3
  · have hrefused := (parse_tooShort { pkt with streamId := pesPrivateStreamId } (by
      show pkt.dataLen < 9
      omega)).2
    exact iff_of_true (endsInside_of_err (hparse.trans hrefused)) (by omega)
  obtain ⟨h0, h1, h2, rest, rfl⟩ := three_bytes (Nat.not_lt.mp hshort)
  cases rest with
  | nil =>
    refine iff_of_false ?_ (by simp)
    rintro ⟨pkt', r, hp, -⟩
    have hleft : ¬ ((pkt.dataLen : Int) - 6 < 3) := by
      rw [hlen6]
      simp only [List.length_cons, List.length_nil]
      omega
    rw [hparse] at hp
    unfold parsePrivate at hp
    dsimp only at hp
    rw [if_neg hleft, hd] at hp
    exact nomatch hp
  | cons h3 rest =>
    have hok := parsePrivate_eq { pkt with streamId := pesPrivateStreamId } hd (by
      show 9 ≤ pkt.dataLen
      simp only [hlen6, List.length_cons]
      omega)
    refine iff_of_true ⟨_, _, hparse.trans hok, fun _ => ⟨?_, ?_⟩⟩ (by simp)
    · dsimp only
      omega
    · dsimp only
      omega

/-- What the first six bytes leave to ask. -/
theorem headerFits_iff {p0 p1 p2 : UInt8} :
    HeaderFits (p0 :: p1 :: p2 :: streamId :: b4 :: b5 :: rest) ↔
      (p0 = 0 ∧ p1 = 0 ∧ p2 = 1 → (streamId = pesPrivateStreamId → rest.length ≠ 3) ∧
        (streamId ∉ headerlessIds → streamId ≠ pesPrivateStreamId → ∀ b6 flags hlen more,
          rest = b6 :: flags :: hlen :: more → (flags &&& 0x80 = 0 ∨ 5 ≤ hlen.toNat) →
          hlen.toNat ≤ more.length)) := by
  constructor
  · rintro hfits ⟨rfl, rfl, rfl⟩
    refine ⟨fun hpriv => hfits.secure b4 b5 rest (by rw [hpriv]), fun hid hpriv => ?_⟩
    rintro b6 flags hlen more rfl
    exact hfits.header _ _ _ _ _ _ _ rfl hid hpriv
  · intro hall
    refine ⟨fun _ _ _ _ _ _ _ hd hid hpriv => ?_, fun _ _ _ hd => ?_⟩
    · simp only [List.cons.injEq] at hd
      obtain ⟨h0, h1, h2, rfl, -, -, hrest⟩ := hd
      exact (hall ⟨h0, h1, h2⟩).2 hid hpriv _ _ _ _ hrest
    · simp only [List.cons.injEq] at hd
      obtain ⟨h0, h1, h2, hpriv, -, -, rfl⟩ := hd
      exact (hall ⟨h0, h1, h2⟩).1 hpriv

theorem endsInside_iff (h : pkt.dataLen = pkt.data.length) :
    EndsInside pkt ↔ HeaderFits pkt.data := by
  by_cases h6 : pkt.dataLen < 6
  · have herr : pesPktParse pkt = some (pkt, swdmxErr) := if_pos h6
    refine iff_of_true (endsInside_of_err herr) ⟨?_, ?_⟩
    · intro _ _ _ _ _ _ _ hd
      rw [h, hd] at h6
      simp only [List.length_cons] at h6
      omega
    · intro _ _ _ hd
      rw [h, hd] at h6
      simp only [List.length_cons] at h6
      omega
  obtain ⟨p0, p1, p2, streamId, b4, b5, rest, hd⟩ := six_bytes (h ▸ Nat.not_lt.mp h6)
  rw [hd, headerFits_iff]
  by_cases hp : p0 ≠ 0 ∨ p1 ≠ 0 ∨ p2 ≠ 1
  · have herr : pesPktParse pkt = some (pkt, swdmxErr) := by
      unfold pesPktParse
      rw [if_neg h6, hd]
      exact if_pos hp
    exact iff_of_true (endsInside_of_err herr) fun hzero => absurd hp (by simp [hzero])
  simp only [not_or, not_not] at hp
  obtain ⟨rfl, rfl, rfl⟩ := hp
  by_cases hpriv : streamId = pesPrivateStreamId
  · subst hpriv
    rw [endsInside_private h hd]
    exact ⟨fun hne _ => ⟨fun _ => hne, fun _ hno => absurd rfl hno⟩,
      fun hall => (hall ⟨rfl, rfl, rfl⟩).1 rfl⟩
  by_cases hid : streamId ∈ headerlessIds
  · have herr : ∃ q, pesPktParse pkt = some (q, swdmxErr) := by
      refine ⟨{ pkt with streamId := streamId }, ?_⟩
      unfold pesPktParse
      rw [if_neg h6, hd]
      simp [hid, hpriv]
    obtain ⟨q, hq⟩ := herr
    exact iff_of_true (endsInside_of_err hq) fun _ =>
      ⟨fun heq => absurd heq hpriv, fun hno => absurd hid hno⟩
  by_cases h9 : rest.length < 3
  · have hlen6 : pkt.dataLen = rest.length + 6 := by
      rw [h, hd]
      rfl
    have herr := (pesPktParse_header (Nat.not_lt.mp h6) hd hid hpriv).trans
      (parse_tooShort { pkt with streamId := streamId } (by
        show pkt.dataLen < 9
        omega)).1
    refine iff_of_true (endsInside_of_err herr) fun _ =>
      ⟨fun heq => absurd heq hpriv, fun _ _ b6 flags hlen more hrest => ?_⟩
    rw [hrest] at h9
    simp only [List.length_cons] at h9
    omega
  obtain ⟨b6, flags, hlen, more, rfl⟩ := three_bytes (Nat.not_lt.mp h9)
  rw [endsInside_header h hd hid hpriv]
  constructor
  · intro hle _
    refine ⟨fun heq => absurd heq hpriv, fun _ _ b6' flags' hlen' more' hrest => ?_⟩
    simp only [List.cons.injEq] at hrest
    obtain ⟨-, rfl, rfl, rfl⟩ := hrest
    exact hle
  · exact fun hall => (hall ⟨rfl, rfl, rfl⟩).2 hid hpriv _ _ _ _ rfl

/-! ## A longer buffer -/

/-- The one list begins with the other. -/
def Extends (longer shorter : List UInt8) : Prop :=
  ∀ (i : Nat) (b : UInt8), shorter[i]? = some b → longer[i]? = some b

theorem extends_take (n : Nat) : Extends data (data.take n) := by
  intro i b h
  obtain ⟨hi, hb⟩ := List.getElem?_eq_some_iff.mp h
  rw [← hb]
  exact List.getElem?_eq_some_iff.mpr ⟨_, (List.getElem_take).symm⟩

variable {longer : List UInt8} {out : Pespacket} {r : Int}

theorem parseHeader_extends (pkt : Pespacket) (hext : Extends longer pkt.data)
    (h : parseHeader pkt = some (out, r)) :
    parseHeader { pkt with data := longer } = some ({ out with data := longer }, r) := by
  unfold parseHeader at h ⊢
  dsimp only at h ⊢
  split at h
  · rename_i hleft
    obtain ⟨rfl, rfl⟩ := Prod.mk.inj (Option.some.inj h)
    rw [if_pos hleft]
  rename_i hleft
  simp only [bind, Option.bind_eq_some_iff] at h
  obtain ⟨scramble, h6, flags, h7, hlen, h8, h⟩ := h
  rw [if_neg hleft, hext _ _ h6, hext _ _ h7, hext _ _ h8]
  simp only [bind, Option.bind_some]
  by_cases hf : flags &&& 0x80 ≠ 0
  · rw [if_pos hf] at h ⊢
    split at h
    · rename_i hshort
      obtain ⟨rfl, rfl⟩ := Prod.mk.inj (Option.some.inj h)
      rw [if_pos hshort]
    · rename_i hlong
      simp only [Option.bind_eq_some_iff] at h
      obtain ⟨h0, hr0, h1, hr1, h2, hr2, h3, hr3, h4, hr4, h⟩ := h
      obtain ⟨rfl, rfl⟩ := Prod.mk.inj (Option.some.inj h)
      rw [if_neg hlong, hext _ _ hr0, hext _ _ hr1, hext _ _ hr2, hext _ _ hr3, hext _ _ hr4]
      rfl
  · rw [if_neg hf] at h ⊢
    obtain ⟨rfl, rfl⟩ := Prod.mk.inj (Option.some.inj h)
    rfl

theorem parsePrivate_extends (pkt : Pespacket) (hext : Extends longer pkt.data)
    (h : parsePrivate pkt = some (out, r)) :
    parsePrivate { pkt with data := longer } = some ({ out with data := longer }, r) := by
  unfold parsePrivate at h ⊢
  dsimp only at h ⊢
  split at h
  · rename_i hleft
    obtain ⟨rfl, rfl⟩ := Prod.mk.inj (Option.some.inj h)
    rw [if_pos hleft]
  rename_i hleft
  simp only [bind, Option.bind_eq_some_iff] at h
  obtain ⟨h0, hr0, h1, hr1, h2, hr2, h3, hr3, h⟩ := h
  obtain ⟨rfl, rfl⟩ := Prod.mk.inj (Option.some.inj h)
  rw [if_neg hleft, hext _ _ hr0, hext _ _ hr1, hext _ _ hr2, hext _ _ hr3]
  rfl

/-- What the parser finds does not depend on the bytes that it does not read. -/
theorem pesPktParse_extends (pkt : Pespacket) (hext : Extends longer pkt.data)
    (h : pesPktParse pkt = some (out, r)) :
    pesPktParse { pkt with data := longer } = some ({ out with data := longer }, r) := by
  unfold pesPktParse at h ⊢
  dsimp only at h ⊢
  split at h
  · rename_i hleft
    obtain ⟨rfl, rfl⟩ := Prod.mk.inj (Option.some.inj h)
    rw [if_pos hleft]
  rename_i hleft
  simp only [bind, Option.bind_eq_some_iff] at h
  obtain ⟨p0, hp0, p1, hp1, p2, hp2, streamId, hp3, h⟩ := h
  rw [if_neg hleft, hext _ _ hp0, hext _ _ hp1, hext _ _ hp2, hext _ _ hp3]
  simp only [bind, Option.bind_some]
  split at h
  · rename_i hprefix
    obtain ⟨rfl, rfl⟩ := Prod.mk.inj (Option.some.inj h)
    rw [if_pos hprefix]
  rename_i hprefix
  rw [if_neg hprefix]
  split at h
  · rename_i hid
    rw [if_pos hid]
    exact parseHeader_extends { pkt with streamId := streamId } hext h
  rename_i hid
  rw [if_neg hid]
  split at h
  · rename_i hpriv
    rw [if_pos hpriv]
    exact parsePrivate_extends { pkt with streamId := streamId } hext h
  · rename_i hpriv
    obtain ⟨rfl, rfl⟩ := Prod.mk.inj (Option.some.inj h)
    rw [if_neg hpriv]

/-- For every packet in a buffer: the parser stays inside iff the header fits. -/
theorem parses_inside_iff (h : pkt.dataLen ≤ pkt.data.length) :
    ParsesInside pkt ↔ HeaderFits (pkt.data.take pkt.dataLen) := by
  have hlen : pkt.alone.dataLen = pkt.alone.data.length := by
    rw [show pkt.alone.data = pkt.data.take pkt.dataLen from rfl, List.length_take]
    exact (Nat.min_eq_left h).symm
  refine Iff.trans ?_ (endsInside_iff hlen)
  have hwhole {out : Pespacket} {r : Int} (ho : pesPktParse pkt.alone = some (out, r)) :
      pesPktParse pkt = some ({ out with data := pkt.data }, r) :=
    pesPktParse_extends pkt.alone (extends_take pkt.dataLen) ho
  constructor
  · intro hin
    obtain ⟨⟨out, r⟩, ho⟩ := Option.ne_none_iff_exists'.mp hin.reads
    refine ⟨out, r, ho, fun hr => ?_⟩
    rw [hr] at ho
    have hpayload := hin.payload _ (hwhole ho)
    exact hpayload
  · rintro ⟨out, r, ho, hin⟩
    refine ⟨fun hnone => (nomatch hnone.symm.trans ho), fun pkt' hp => ?_⟩
    obtain ⟨rfl, rfl⟩ := Prod.mk.inj (Option.some.inj ((hwhole ho).symm.trans hp))
    exact hin rfl

/-- A packet of nine bytes whose header claims 255 more. -/
def longHeaderPkt : Pespacket where
  valid := false
  hasPts := false
  streamId := 0
  scramble := 0
  pts := 0
  data := [0, 0, 1, 0xe0, 0, 0, 0x80, 0, 255]
  payload := 0
  dataLen := 9
  payloadLen := 0

theorem parses_inside_longHeader :
    ParsesInside longHeaderPkt ↔ HeaderFits (longHeaderPkt.data.take longHeaderPkt.dataLen) :=
  parses_inside_iff (by decide)

/-- The payload of the packet begins 255 bytes behind its end. -/
theorem longHeader_behind :
    (∃ pkt', pesPktParse longHeaderPkt = some (pkt', swdmxOk) ∧
      pkt'.payload = 264 ∧ pkt'.payloadLen = -255) ∧ ¬ ParsesInside longHeaderPkt := by
  have hparse : pesPktParse longHeaderPkt = some ({ longHeaderPkt with
      streamId := 0xe0, payload := 264, payloadLen := -255 }, swdmxOk) := by decide
  exact ⟨⟨_, hparse, rfl, rfl⟩, fun hin => absurd (hin.payload _ hparse).1 (by decide)⟩

end

end MediaModules.Demux
