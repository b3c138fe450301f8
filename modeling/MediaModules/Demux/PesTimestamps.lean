import MediaModules.Demux.PesPacket

/-!
# PES timestamps

A timestamp stands in a packet in one of two layouts: in five bytes with marker bits behind the
optional header, or in four bytes, the first the highest, at the start of a private packet.
-/
namespace MediaModules.Demux

/-- The two layouts. The first one has four more bits before the timestamp. -/
inductive PtsLayout
  | standard (pre : Nat)
  | secure

/-- The bytes of a timestamp. -/
def PtsLayout.bytes (pts : Nat) : PtsLayout → List UInt8
  | .standard pre =>
    [.ofNat (pre * 16 + pts / 2 ^ 30 * 2 + 1), .ofNat (pts / 2 ^ 22), .ofNat (pts / 2 ^ 15 * 2 + 1),
      .ofNat (pts / 2 ^ 7), .ofNat (pts * 2 + 1)]
  | .secure => [.ofNat (pts / 2 ^ 24), .ofNat (pts / 2 ^ 16), .ofNat (pts / 2 ^ 8), .ofNat pts]

/-- The timestamps that a layout has room for. -/
def PtsLayout.Fits (pts : Nat) : PtsLayout → Prop
  | .standard _ => pts < 2 ^ 33
  | .secure => pts < 2 ^ 32

/-- The packet carries the timestamp in the layout. -/
def Carries (pts : Nat) (pkt : Pespacket) : PtsLayout → Prop
  | .standard pre => ∃ streamId b4 b5 b6 flags hlen rest,
      pkt.data = 0 :: 0 :: 1 :: streamId :: b4 :: b5 :: b6 :: flags :: hlen ::
        ((PtsLayout.standard pre).bytes pts ++ rest) ∧
      streamId ∉ headerlessIds ∧ streamId ≠ pesPrivateStreamId ∧ flags &&& 0x80 ≠ 0 ∧
      5 ≤ hlen.toNat ∧ 14 ≤ pkt.dataLen
  | .secure => ∃ b4 b5 rest, pkt.data = 0 :: 0 :: 1 :: pesPrivateStreamId :: b4 :: b5 ::
      (PtsLayout.secure.bytes pts ++ rest) ∧ 10 ≤ pkt.dataLen

/-- The parser finds a timestamp in the packet, and it is this one. -/
def PtsDecoded (pts : Nat) (pkt : Pespacket) : Prop :=
  ∃ pkt', pesPktParse pkt = some (pkt', swdmxOk) ∧ pkt'.hasPts = true ∧ pkt'.pts.toNat = pts

/-! ## Bits -/

theorem and_headBits : ∀ n < 256, n &&& 14 = n / 2 % 8 * 2 := by decide +kernel

theorem and_highBits : ∀ n < 256, n &&& 254 = n / 2 * 2 := by decide +kernel

section

variable {a b c d e : Nat}

/-- Parts with no bit in common. -/
theorem or_eq_add (i : Nat) (h : b < 2 ^ i) : a * 2 ^ i ||| b = a * 2 ^ i + b := by
  rw [Nat.mul_comm]
  exact (Nat.two_pow_add_eq_or_of_lt h a).symm

theorem standardParts (hb : b < 2 ^ 8) (hc : c < 2 ^ 7) (hd : d < 2 ^ 8) (he : e < 2 ^ 7) :
    a * 2 ^ 30 ||| b * 2 ^ 22 ||| c * 2 ^ 15 ||| d * 2 ^ 7 ||| e =
      a * 2 ^ 30 + b * 2 ^ 22 + c * 2 ^ 15 + d * 2 ^ 7 + e := by
  have h1 : a * 2 ^ 30 ||| b * 2 ^ 22 = (a * 2 ^ 8 + b) * 2 ^ 22 := by
    rw [or_eq_add 30 (by omega)]
    omega
  have h2 : (a * 2 ^ 8 + b) * 2 ^ 22 ||| c * 2 ^ 15 = ((a * 2 ^ 8 + b) * 2 ^ 7 + c) * 2 ^ 15 := by
    rw [or_eq_add 22 (by omega)]
    omega
  have h3 : ((a * 2 ^ 8 + b) * 2 ^ 7 + c) * 2 ^ 15 ||| d * 2 ^ 7 =
      (((a * 2 ^ 8 + b) * 2 ^ 7 + c) * 2 ^ 8 + d) * 2 ^ 7 := by
    rw [or_eq_add 15 (by omega)]
    omega
  rw [h1, h2, h3, or_eq_add 7 he]
  omega

end

section

variable {h0 h1 h2 h3 h4 : UInt8}

/-- A byte in its place is no number that wraps. -/
theorem shifted_toNat (b : UInt8) {k : Nat} (hk : k ≤ 29) :
    (b.toUInt64 <<< UInt64.ofNat k).toNat = b.toNat * 2 ^ k := by
  have hb := b.toNat_lt
  have hpow : 2 ^ k ≤ 2 ^ 29 := Nat.pow_le_pow_right (by decide) hk
  have hsmall : b.toNat * 2 ^ k ≤ 2 ^ 8 * 2 ^ 29 := Nat.mul_le_mul (Nat.le_of_lt hb) hpow
  rw [UInt64.toNat_shiftLeft, UInt8.toNat_toUInt64, UInt64.toNat_ofNat']
  rw [Nat.mod_eq_of_lt (by omega : k < 2 ^ 64), Nat.mod_eq_of_lt (by omega : k < 64),
    Nat.shiftLeft_eq, Nat.mod_eq_of_lt (by omega)]

theorem headerPts_toNat : (headerPts h0 h1 h2 h3 h4).toNat =
    h0.toNat / 2 % 8 * 2 ^ 30 + h1.toNat * 2 ^ 22 + h2.toNat / 2 * 2 ^ 15 + h3.toNat * 2 ^ 7 +
      h4.toNat / 2 := by
  have h0lt := h0.toNat_lt
  have h1lt := h1.toNat_lt
  have h2lt := h2.toNat_lt
  have h3lt := h3.toNat_lt
  have h4lt := h4.toNat_lt
  have hhead : ((h0 &&& 0x0e).toUInt64 <<< 29).toNat = h0.toNat / 2 % 8 * 2 ^ 30 := by
    apply (shifted_toNat (h0 &&& 0x0e) (by decide : 29 ≤ 29)).trans
    rw [UInt8.toNat_and, show (0x0e : UInt8).toNat = 14 from rfl, and_headBits _ h0lt]
    omega
  have hmiddle : ((h2 &&& 0xfe).toUInt64 <<< 14).toNat = h2.toNat / 2 * 2 ^ 15 := by
    apply (shifted_toNat (h2 &&& 0xfe) (by decide : 14 ≤ 29)).trans
    rw [UInt8.toNat_and, show (0xfe : UInt8).toNat = 254 from rfl, and_highBits _ h2lt]
    omega
  have hlast : ((h4 &&& 0xfe).toUInt64 >>> 1).toNat = h4.toNat / 2 := by
    rw [UInt64.toNat_shiftRight, UInt8.toNat_toUInt64, UInt8.toNat_and,
      show (0xfe : UInt8).toNat = 254 from rfl, and_highBits _ h4lt]
    show (h4.toNat / 2 * 2) >>> 1 = h4.toNat / 2
    rw [Nat.shiftRight_eq_div_pow]
    omega
  have hs1 : (h1.toUInt64 <<< 22).toNat = h1.toNat * 2 ^ 22 := shifted_toNat h1 (by decide)
  have hs3 : (h3.toUInt64 <<< 7).toNat = h3.toNat * 2 ^ 7 := shifted_toNat h3 (by decide)
  unfold headerPts
  rw [UInt64.toNat_or, UInt64.toNat_or, UInt64.toNat_or, UInt64.toNat_or, hhead, hmiddle, hlast,
    hs1, hs3]
  exact standardParts h1lt (by omega) h3lt (by omega)

/-- What is shifted by eight bits or more is none of the eight lowest. -/
theorem shifted_low (n : Nat) {k : Nat} (hk : 8 ≤ k) : n * 2 ^ k % 2 ^ 8 = 0 :=
  Nat.mod_eq_zero_of_dvd (Nat.dvd_trans (Nat.pow_dvd_pow 2 hk) (Nat.dvd_mul_left _ n))

theorem privatePts_parts : (privatePts h0 h1 h2 h3).toNat =
    h0.toNat * 2 ^ 24 ||| h1.toNat * 2 ^ 16 ||| h2.toNat * 2 ^ 8 ||| h3.toNat * 2 ^ 7 := by
  have hs0 : (h0.toUInt64 <<< 24).toNat = h0.toNat * 2 ^ 24 := shifted_toNat h0 (by decide)
  have hs1 : (h1.toUInt64 <<< 16).toNat = h1.toNat * 2 ^ 16 := shifted_toNat h1 (by decide)
  have hs2 : (h2.toUInt64 <<< 8).toNat = h2.toNat * 2 ^ 8 := shifted_toNat h2 (by decide)
  have hs3 : (h3.toUInt64 <<< 7).toNat = h3.toNat * 2 ^ 7 := shifted_toNat h3 (by decide)
  unfold privatePts
  rw [UInt64.toNat_or, UInt64.toNat_or, UInt64.toNat_or, hs0, hs1, hs2, hs3]

/-- The eight lowest bits of the timestamp of a private packet. -/
theorem privatePts_low : (privatePts h0 h1 h2 h3).toNat % 2 ^ 8 = h3.toNat % 2 * 2 ^ 7 := by
  rw [privatePts_parts, Nat.or_mod_two_pow, Nat.or_mod_two_pow, Nat.or_mod_two_pow,
    shifted_low _ (by decide), shifted_low _ (by decide), shifted_low _ (by decide),
    Nat.zero_or, Nat.zero_or, Nat.zero_or]
  omega

theorem privatePts_zero : (privatePts h0 h1 h2 0).toNat =
    h0.toNat * 2 ^ 24 + h1.toNat * 2 ^ 16 + h2.toNat * 2 ^ 8 := by
  have h1lt := h1.toNat_lt
  have h2lt := h2.toNat_lt
  have hfirst : h0.toNat * 2 ^ 24 ||| h1.toNat * 2 ^ 16 =
      (h0.toNat * 2 ^ 8 + h1.toNat) * 2 ^ 16 := by
    rw [or_eq_add 24 (by omega)]
    omega
  rw [privatePts_parts, hfirst, or_eq_add 16 (by omega),
    show (0 : UInt8).toNat * 2 ^ 7 = 0 from rfl, Nat.or_zero]
  omega

end

/-! ## Decoding -/

section

variable {pts : Nat} {pkt : Pespacket} {layout : PtsLayout}

theorem ptsDecoded_standard {pre : Nat} (hpts : pts < 2 ^ 33)
    (h : Carries pts pkt (.standard pre)) : PtsDecoded pts pkt := by
  obtain ⟨streamId, b4, b5, b6, flags, hlen, rest, hd, hid, hpriv, hf, hlong, hend⟩ := h
  have hparse := (pesPktParse_header (by omega) hd hid hpriv).trans
    (parseHeader_stamped { pkt with streamId := streamId } hd (Nat.le_trans (by decide) hend) hf
      hlong)
  refine ⟨_, hparse, rfl, headerPts_toNat.trans ?_⟩
  simp only [UInt8.toNat_ofNat']
  omega

/-- The layout of private packets is decoded iff its lowest byte is zero. -/
theorem ptsDecoded_secure (hpts : pts < 2 ^ 32) (h : Carries pts pkt .secure) :
    PtsDecoded pts pkt ↔ pts % 256 = 0 := by
  obtain ⟨b4, b5, rest, hd, hend⟩ := h
  have hparse := (pesPktParse_private (by omega) hd).trans
    (parsePrivate_eq { pkt with streamId := pesPrivateStreamId } hd
      (Nat.le_trans (by decide) hend))
  constructor
  · rintro ⟨pkt', hp, -, hpts'⟩
    obtain ⟨rfl, -⟩ := Prod.mk.inj (Option.some.inj (hparse.symm.trans hp))
    have hlow := congrArg (· % 2 ^ 8) hpts'
    dsimp only at hlow
    rw [privatePts_low, UInt8.toNat_ofNat'] at hlow
    omega
  · intro hzero
    refine ⟨_, hparse, rfl, ?_⟩
    have hbyte : UInt8.ofNat pts = 0 := by
      rw [← UInt8.toNat_inj, UInt8.toNat_ofNat']
      exact hzero
    show (privatePts (.ofNat (pts / 2 ^ 24)) (.ofNat (pts / 2 ^ 16)) (.ofNat (pts / 2 ^ 8))
      (.ofNat pts)).toNat = pts
    rw [hbyte, privatePts_zero, UInt8.toNat_ofNat', UInt8.toNat_ofNat', UInt8.toNat_ofNat']
    omega

/-- For every timestamp and every packet that carries it: the parser finds it, but in a private
packet only one whose lowest byte is zero. -/
theorem pts_decoded_iff (hfits : layout.Fits pts) (h : Carries pts pkt layout) :
    PtsDecoded pts pkt ↔ (layout = .secure → pts % 256 = 0) := by
  cases layout with
  | standard pre =>
    exact iff_of_true (ptsDecoded_standard hfits h) fun hc => nomatch hc
  | secure =>
    rw [ptsDecoded_secure hfits h]
    exact ⟨fun hzero _ => hzero, fun hzero => hzero rfl⟩

/-- A private packet with the bytes of its buffer description, and the timestamp 1. -/
def secureBufPkt : Pespacket where
  valid := false
  hasPts := false
  streamId := 0
  scramble := 0
  pts := 0
  data := [0, 0, 1, 0xfc, 0, 13, 0, 0, 0, 1, 0, 0, 0, 16, 0, 0, 0, 32, 0]
  payload := 0
  dataLen := 19
  payloadLen := 0

theorem secureBuf_carries : Carries 1 secureBufPkt .secure :=
  ⟨0, 13, [0, 0, 0, 16, 0, 0, 0, 32, 0], rfl, by decide⟩

theorem pts_decoded_secureBuf :
    PtsDecoded 1 secureBufPkt ↔ (PtsLayout.secure = .secure → 1 % 256 = 0) :=
  pts_decoded_iff (show 1 < 2 ^ 32 by decide) secureBuf_carries

/-- The parser reads the timestamp 1 as 128. -/
theorem secureBuf_shifted : Carries 1 secureBufPkt .secure ∧
    (∃ pkt', pesPktParse secureBufPkt = some (pkt', swdmxOk) ∧ pkt'.pts = 128) ∧
    ¬ PtsDecoded 1 secureBufPkt := by
  have hparse : pesPktParse secureBufPkt = some ({ secureBufPkt with
      streamId := 0xfc, hasPts := true, pts := 128, payload := 19, payloadLen := 0 }, swdmxOk) := by
    decide
  refine ⟨secureBuf_carries, ⟨_, hparse, rfl⟩, fun hdec => ?_⟩
  obtain ⟨pkt', hp, -, hpts⟩ := hdec
  obtain ⟨rfl, -⟩ := Prod.mk.inj (Option.some.inj (hparse.symm.trans hp))
  exact absurd hpts (by decide)

end

end MediaModules.Demux
