import MediaModules.Demux.PesPacket
import MediaModules.Demux.TsParser
import MediaModules.Lib.Memory
import MediaModules.Lib.Run
import MediaModules.Lib.Words

/-!
# The PES parser

`swdmx_pes_parser_ts_packet_cb` appends the payloads of TS packets to one buffer, which grows when a
payload does not fit. The next packet that starts a payload hands the buffer to the callbacks.
-/
namespace MediaModules.Demux

open Lib.Run Lib.Words

/-- `struct swdmx_pesparser`, less its callbacks. -/
structure Pesparser where
  start : Bool
  tsScramble : UInt8
  pkt : Pespacket

/-- `swdmx_pes_parser_new`. The allocation leaves the other fields of the packet as they are. -/
def pesParserNew (raw : Pespacket) : Pesparser where
  start := false
  tsScramble := 0
  pkt := { raw with data := [], dataLen := 0 }

/-- The payload of a TS packet. -/
def Tspacket.bytes (ts : Tspacket) : List UInt8 := ts.payload.getD []

/-- The bytes of a PES packet. -/
def Pespacket.bytes (pkt : Pespacket) : List UInt8 := pkt.data.take pkt.dataLen

/-- `pes_pkt_output`: the parser after it, and what the callbacks are given. -/
def pesPktOutput (pp : Pesparser) : Option (Pesparser × Pespacket) := do
  let (pkt, r) ← pesPktParse { pp.pkt with valid := false, hasPts := false }
  let pkt :=
    if r = swdmxOk then { pkt with valid := true } else { pkt with scramble := pp.tsScramble }
  some ({ pp with pkt := pkt, start := false }, pkt)

/-- `swdmx_pes_packet_resize`. The reallocation fails, or gives the bytes behind the old ones. -/
def swdmxPesPacketResize (grant : Option (Nat → UInt8)) (len : Int) (pkt : Pespacket) :
    Pespacket × Int :=
  let len := max len (32 * 1024)
  let len := max len (s32 (pkt.data.length * 2))
  match grant with
  | none => (pkt, swdmxErr)
  | some fresh =>
    ({ pkt with data := pkt.data ++ (List.range (len.toNat - pkt.data.length)).map fresh }, swdmxOk)

/-- The first branch of the callback, for a TS packet that starts a payload. -/
def startPayload (ts : Tspacket) (pp : Pesparser) : Option (Pesparser × List Pespacket) := do
  let (pp, out) ←
    if pp.start then (pesPktOutput pp).map fun done => (done.1, [done.2]) else some (pp, [])
  some ({ pp with start := true, tsScramble := ts.scramble, pkt := { pp.pkt with dataLen := 0 } },
    out)

/-- The `memcpy` of the callback and the new length; `none` is a write behind the buffer. -/
def copyPayload (src : List UInt8) (len : Int) (pkt : Pespacket) : Option Pespacket :=
  (Lib.Memory.write pkt.data pkt.dataLen src).map fun data =>
    { pkt with data := data, dataLen := len.toNat }

/-- The rest of the callback. -/
def fillPacket (ts : Tspacket) (grant : Option (Nat → UInt8)) (pkt : Pespacket) :
    Option Pespacket :=
  let len := s32 (pkt.dataLen + ts.bytes.length)
  if (pkt.data.length : Int) < len then
    let (pkt, r) := swdmxPesPacketResize grant len pkt
    if r = swdmxErr then some pkt else copyPayload ts.bytes len pkt
  else copyPayload ts.bytes len pkt

/-- `swdmx_pes_parser_ts_packet_cb`: the parser after it, and what the callbacks are given. -/
def swdmxPesParserTsPacketCb (ts : Tspacket) (grant : Option (Nat → UInt8)) (pp : Pesparser) :
    Option (Pesparser × List Pespacket) := do
  let (pp, out) ← if ts.payloadStart ≠ 0 then startPayload ts pp else some (pp, [])
  if pp.start = false then some (pp, out)
  else
    let pkt ← fillPacket ts grant pp.pkt
    some ({ pp with pkt := pkt }, out)

/-! ## Runs -/

/-- The parser, the TS packets it was given and the PES packets it delivered. -/
structure PesRun where
  pp : Pesparser
  seen : List Tspacket
  delivered : List Pespacket

/-- One TS packet and what becomes of a reallocation for it. -/
structure PesInput where
  ts : Tspacket
  grant : Option (Nat → UInt8)

def pesStep (s : PesRun) (op : PesInput) : Option PesRun :=
  (swdmxPesParserTsPacketCb op.ts op.grant s.pp).map fun done =>
    ⟨done.1, s.seen ++ [op.ts], s.delivered ++ done.2⟩

/-- Before the first TS packet. -/
def pesRunNew (raw : Pespacket) : PesRun := ⟨pesParserNew raw, [], []⟩

/-- The payloads of the TS packets from the last one that starts a payload. -/
def SincePayloadStart (seen : List Tspacket) (bytes : List UInt8) : Prop :=
  ∃ before first more, seen = before ++ first :: more ∧ first.payloadStart ≠ 0 ∧
    (∀ ts ∈ more, ts.payloadStart = 0) ∧ bytes = (first :: more).flatMap Tspacket.bytes

/-- The bytes are the payloads from one TS packet that starts a payload up to the next. -/
def WholePacket (seen : List Tspacket) (bytes : List UInt8) : Prop :=
  ∃ upto next after, seen = upto ++ next :: after ∧ next.payloadStart ≠ 0 ∧
    SincePayloadStart upto bytes

/-- Every PES packet that was delivered is whole. -/
def DeliversWhole (s : PesRun) : Prop := ∀ pkt ∈ s.delivered, WholePacket s.seen pkt.bytes

/-- The length of the packet before the payload of this TS packet. -/
def lenBefore (ts : Tspacket) (pp : Pesparser) : Nat :=
  if ts.payloadStart ≠ 0 then 0 else pp.pkt.dataLen

/-- A payload that belongs to a packet is appended: the length stays an `int`, and where the buffer
is too small the reallocation is granted. -/
def PayloadKept (s : PesRun) (op : PesInput) : Prop :=
  op.ts.payloadStart ≠ 0 ∨ s.pp.start = true →
    lenBefore op.ts s.pp + op.ts.bytes.length < 2 ^ 31 ∧
    (s.pp.pkt.data.length < lenBefore op.ts s.pp + op.ts.bytes.length → op.grant ≠ none)

instance (s : PesRun) (op : PesInput) : Decidable (PayloadKept s op) :=
  inferInstanceAs (Decidable (_ → _))

/-! ## Delivered packets -/

section

variable {seen : List Tspacket} {bytes : List UInt8} {ts : Tspacket}

theorem SincePayloadStart.start (hts : ts.payloadStart ≠ 0) :
    SincePayloadStart (seen ++ [ts]) ts.bytes :=
  ⟨seen, ts, [], rfl, hts, fun _ hm => (nomatch hm), by
    rw [List.flatMap_singleton]⟩

theorem SincePayloadStart.more (h : SincePayloadStart seen bytes) (hts : ts.payloadStart = 0) :
    SincePayloadStart (seen ++ [ts]) (bytes ++ ts.bytes) := by
  obtain ⟨before, first, more, rfl, hfirst, hmore, rfl⟩ := h
  refine ⟨before, first, more ++ [ts], ?_, hfirst, ?_, ?_⟩
  · rw [List.append_assoc, List.cons_append]
  · intro ts' hm
    rcases List.mem_append.mp hm with hm | hm
    · exact hmore ts' hm
    · rw [List.mem_singleton.mp hm]
      exact hts
  · rw [← List.cons_append, List.flatMap_append, List.flatMap_singleton]

/-- The next start completes what was put together. -/
theorem SincePayloadStart.whole (h : SincePayloadStart seen bytes) (hts : ts.payloadStart ≠ 0) :
    WholePacket (seen ++ [ts]) bytes :=
  ⟨seen, ts, [], rfl, hts, h⟩

theorem WholePacket.append (h : WholePacket seen bytes) : WholePacket (seen ++ [ts]) bytes := by
  obtain ⟨upto, next, after, rfl, hnext, hsince⟩ := h
  exact ⟨upto, next, after ++ [ts], by rw [List.append_assoc, List.cons_append], hnext, hsince⟩

end

/-! ## One packet -/

section

variable {pkt pkt' out : Pespacket} {r : Int}

/-- With fourteen bytes in the buffer the parser reads none behind it, and it changes no bytes. -/
theorem pesPktParse_total (h : pkt.dataLen < 6 ∨ 14 ≤ pkt.data.length) :
    ∃ pkt' r, pesPktParse pkt = some (pkt', r) ∧ pkt'.data = pkt.data ∧
      pkt'.dataLen = pkt.dataLen := by
  by_cases h6 : pkt.dataLen < 6
  · exact ⟨pkt, swdmxErr, if_pos h6, rfl, rfl⟩
  have h14 : 14 ≤ pkt.data.length := h.resolve_left h6
  have hread (i : Nat) (hi : i < 14) : ∃ b, pkt.data[i]? = some b :=
    ⟨_, List.getElem?_eq_getElem (Nat.lt_of_lt_of_le hi h14)⟩
  obtain ⟨p0, hp0⟩ := hread 0 (by decide)
  obtain ⟨p1, hp1⟩ := hread 1 (by decide)
  obtain ⟨p2, hp2⟩ := hread 2 (by decide)
  obtain ⟨p3, hp3⟩ := hread 3 (by decide)
  obtain ⟨p6, hp6⟩ := hread 6 (by decide)
  obtain ⟨p7, hp7⟩ := hread 7 (by decide)
  obtain ⟨p8, hp8⟩ := hread 8 (by decide)
  obtain ⟨p9, hp9⟩ := hread 9 (by decide)
  obtain ⟨p10, hp10⟩ := hread 10 (by decide)
  obtain ⟨p11, hp11⟩ := hread 11 (by decide)
  obtain ⟨p12, hp12⟩ := hread 12 (by decide)
  obtain ⟨p13, hp13⟩ := hread 13 (by decide)
  simp only [pesPktParse, if_neg h6, hp0, hp1, hp2, hp3, bind, Option.bind_some, parseHeader,
    parsePrivate, hp6, hp7, hp8, hp9, hp10, hp11, hp12, hp13]
  split_ifs <;> exact ⟨_, _, rfl, rfl, rfl⟩

/-- The callbacks are given the bytes that were put together. -/
theorem pesPktOutput_total (pp : Pesparser)
    (h : pp.pkt.dataLen < 6 ∨ 14 ≤ pp.pkt.data.length) :
    ∃ pp' out, pesPktOutput pp = some (pp', out) ∧ out.bytes = pp.pkt.bytes ∧
      pp'.pkt.data = pp.pkt.data := by
  obtain ⟨pkt', r, hparse, hdata, hlen⟩ :=
    pesPktParse_total (show ({ pp.pkt with valid := false, hasPts := false } : Pespacket).dataLen < 6 ∨
      14 ≤ ({ pp.pkt with valid := false, hasPts := false } : Pespacket).data.length from h)
  unfold pesPktOutput
  rw [hparse]
  refine ⟨_, _, rfl, ?_, ?_⟩
  · unfold Pespacket.bytes
    by_cases hr : r = swdmxOk
    · rw [if_pos hr, hdata, hlen]
    · rw [if_neg hr, hdata, hlen]
  · by_cases hr : r = swdmxOk
    · exact (congrArg Pespacket.data (if_pos hr)).trans hdata
    · exact (congrArg Pespacket.data (if_neg hr)).trans hdata

/-- The buffer of the parser: there is none, or it has room for a header. -/
structure BufferOk (pkt : Pespacket) : Prop where
  room : pkt.dataLen ≤ pkt.data.length
  capacity : pkt.data.length = 0 ∨ 32768 ≤ pkt.data.length
  small : pkt.data.length < 2 ^ 31

theorem BufferOk.parses (h : BufferOk pkt) : pkt.dataLen < 6 ∨ 14 ≤ pkt.data.length := by
  rcases h.capacity with hc | hc
  · have hroom := h.room
    omega
  · exact .inr (by omega)

/-- A granted reallocation keeps the bytes and makes room for `len`. -/
theorem resize_granted (pkt : Pespacket) (fresh : Nat → UInt8) {len : Int}
    (hlt : (pkt.data.length : Int) < len) (hint : len < 2 ^ 31) :
    ∃ more, swdmxPesPacketResize (some fresh) len pkt =
      ({ pkt with data := pkt.data ++ more }, swdmxOk) ∧
      len ≤ (pkt.data ++ more).length ∧ 32768 ≤ (pkt.data ++ more).length ∧
      (pkt.data ++ more).length < 2 ^ 31 := by
  have hs : s32 (pkt.data.length * 2) < 2147483648 := by
    unfold s32
    omega
  refine ⟨_, rfl, ?_, ?_, ?_⟩ <;>
    simp only [List.length_append, List.length_map, List.length_range] <;> omega

theorem copyPayload_fits (pkt : Pespacket) (src : List UInt8)
    (hfit : pkt.dataLen + src.length ≤ pkt.data.length) :
    ∃ pkt', copyPayload src ((pkt.dataLen + src.length : Nat) : Int) pkt = some pkt' ∧
      pkt'.data.length = pkt.data.length ∧ pkt'.dataLen = pkt.dataLen + src.length ∧
      pkt'.bytes = pkt.bytes ++ src := by
  have hin : Lib.Memory.Inside pkt.data pkt.dataLen src.length := ⟨Int.natCast_nonneg _, by omega⟩
  unfold copyPayload Lib.Memory.write
  rw [if_pos hin]
  refine ⟨_, rfl, ?_, rfl, ?_⟩
  · simp only [List.length_append, List.length_take, List.length_drop, Int.toNat_natCast]
    omega
  · unfold Pespacket.bytes
    have hlen : (pkt.data.take pkt.dataLen ++ src).length = pkt.dataLen + src.length := by
      rw [List.length_append, List.length_take]
      omega
    simp only [Int.toNat_natCast]
    rw [← hlen]
    exact List.take_left

/-- A payload that is kept is appended, and the buffer stays as it should be. -/
theorem fillPacket_kept {ts : Tspacket} {grant : Option (Nat → UInt8)} (h : BufferOk pkt)
    (hint : pkt.dataLen + ts.bytes.length < 2 ^ 31)
    (hgrant : pkt.data.length < pkt.dataLen + ts.bytes.length → grant ≠ none) :
    ∃ pkt', fillPacket ts grant pkt = some pkt' ∧ BufferOk pkt' ∧
      pkt'.bytes = pkt.bytes ++ ts.bytes := by
  have hlen : s32 (pkt.dataLen + ts.bytes.length) = ((pkt.dataLen + ts.bytes.length : Nat) : Int) := by
    rw [s32_of_range (by omega) (by omega)]
    omega
  unfold fillPacket
  rw [hlen]
  by_cases hlt : (pkt.data.length : Int) < ((pkt.dataLen + ts.bytes.length : Nat) : Int)
  · obtain ⟨fresh, rfl⟩ := Option.ne_none_iff_exists'.mp (hgrant (by omega))
    obtain ⟨more, hresize, hlong, hcap, hsmall⟩ := resize_granted pkt fresh hlt (by omega)
    rw [if_pos hlt, hresize]
    obtain ⟨pkt', hcopy, hlength, hdataLen, hbytes⟩ :=
      copyPayload_fits { pkt with data := pkt.data ++ more } ts.bytes
        (by exact_mod_cast hlong)
    have hkeep : ({ pkt with data := pkt.data ++ more } : Pespacket).bytes = pkt.bytes :=
      List.take_append_of_le_length h.room
    refine ⟨pkt', hcopy, ⟨?_, ?_, ?_⟩, hbytes.trans (congrArg (· ++ ts.bytes) hkeep)⟩
    · rw [hdataLen, hlength]
      exact_mod_cast hlong
    · rw [hlength]
      exact .inr hcap
    · rw [hlength]
      exact hsmall
  · obtain ⟨pkt', hcopy, hlength, hdataLen, hbytes⟩ :=
      copyPayload_fits pkt ts.bytes (by omega)
    rw [if_neg hlt]
    refine ⟨pkt', hcopy, ⟨?_, ?_, ?_⟩, hbytes⟩
    · rw [hdataLen, hlength]
      omega
    · rw [hlength]
      exact h.capacity
    · rw [hlength]
      exact h.small

/-- A TS packet that starts a payload hands the packet that was open to the callbacks. -/
theorem startPayload_total (ts : Tspacket) {pp : Pesparser} (h : BufferOk pp.pkt) :
    ∃ pp' out, startPayload ts pp = some (pp', out) ∧ pp'.start = true ∧ BufferOk pp'.pkt ∧
      pp'.pkt.data = pp.pkt.data ∧ pp'.pkt.dataLen = 0 ∧
      ∀ pkt ∈ out, pp.start = true ∧ pkt.bytes = pp.pkt.bytes := by
  have hok {data : List UInt8} {pkt : Pespacket} (hd : data = pp.pkt.data) :
      BufferOk { pkt with data := data, dataLen := 0 } :=
    ⟨Nat.zero_le _, hd ▸ h.capacity, hd ▸ h.small⟩
  unfold startPayload
  by_cases hstart : pp.start = true
  · obtain ⟨pp', out, hout, hbytes, hdata⟩ := pesPktOutput_total pp h.parses
    rw [if_pos hstart, hout]
    refine ⟨_, _, rfl, rfl, hok hdata, hdata, rfl, fun pkt hm => ⟨hstart, ?_⟩⟩
    rw [List.mem_singleton.mp hm]
    exact hbytes
  · rw [if_neg hstart]
    exact ⟨_, _, rfl, rfl, hok rfl, rfl, rfl, fun _ hm => (nomatch hm)⟩

end

/-! ## Every run -/

section

variable {s : PesRun} {op : PesInput}

/-- What the guarded steps keep. -/
structure PesInv (s : PesRun) : Prop where
  buffer : BufferOk s.pp.pkt
  whole : DeliversWhole s
  opened : s.pp.start = true → SincePayloadStart s.seen s.pp.pkt.bytes

theorem pesInv_new (raw : Pespacket) : PesInv (pesRunNew raw) :=
  ⟨⟨Nat.le_refl 0, .inl rfl, Nat.two_pow_pos 31⟩, fun _ hm => (nomatch hm), fun h => (nomatch h)⟩

theorem DeliversWhole.seen (h : DeliversWhole s) (ts : Tspacket) :
    ∀ pkt ∈ s.delivered, WholePacket (s.seen ++ [ts]) pkt.bytes :=
  fun pkt hm => (h pkt hm).append

/-- A TS packet that starts a payload completes one packet and opens the next. -/
theorem pesStep_start (h : PesInv s) (hts : op.ts.payloadStart ≠ 0) (hok : PayloadKept s op) :
    ∃ s', pesStep s op = some s' ∧ PesInv s' := by
  obtain ⟨pp', out, hstart, hopen, hbuffer, hdata, hzero, hout⟩ := startPayload_total op.ts h.buffer
  have hbefore : lenBefore op.ts s.pp = pp'.pkt.dataLen := (if_pos hts).trans hzero.symm
  obtain ⟨hint, hgrant⟩ := hok (.inl hts)
  rw [hbefore] at hint hgrant
  rw [← hdata] at hgrant
  obtain ⟨pkt', hfill, hbuffer', hbytes⟩ := fillPacket_kept hbuffer hint hgrant
  have hstep : pesStep s op = some ⟨{ pp' with pkt := pkt' }, s.seen ++ [op.ts],
      s.delivered ++ out⟩ := by
    unfold pesStep swdmxPesParserTsPacketCb
    rw [if_pos hts, hstart]
    simp only [bind, Option.bind_some, hopen, Bool.true_eq_false, if_false, hfill, Option.map_some]
  have hempty : pp'.pkt.bytes = [] := by
    unfold Pespacket.bytes
    rw [hzero]
    exact List.take_zero
  refine ⟨_, hstep, hbuffer', fun pkt hm => ?_, fun _ => ?_⟩
  · rcases List.mem_append.mp hm with hm | hm
    · exact h.whole.seen op.ts pkt hm
    · obtain ⟨hwas, heq⟩ := hout pkt hm
      rw [heq]
      exact (h.opened hwas).whole hts
  · show SincePayloadStart (s.seen ++ [op.ts]) pkt'.bytes
    rw [hbytes, hempty]
    exact .start hts

/-- Any other TS packet is appended to the open packet, if there is one. -/
theorem pesStep_more (h : PesInv s) (hts : op.ts.payloadStart = 0) (hok : PayloadKept s op) :
    ∃ s', pesStep s op = some s' ∧ PesInv s' := by
  have hno : ¬ op.ts.payloadStart ≠ 0 := fun hne => hne hts
  by_cases hopen : s.pp.start = true
  · obtain ⟨hint, hgrant⟩ := hok (.inr hopen)
    rw [show lenBefore op.ts s.pp = s.pp.pkt.dataLen from if_neg hno] at hint hgrant
    obtain ⟨pkt', hfill, hbuffer', hbytes⟩ := fillPacket_kept h.buffer hint hgrant
    have hstep : pesStep s op = some ⟨{ s.pp with pkt := pkt' }, s.seen ++ [op.ts],
        s.delivered ++ []⟩ := by
      unfold pesStep swdmxPesParserTsPacketCb
      rw [if_neg hno]
      simp only [bind, Option.bind_some, hopen, Bool.true_eq_false, if_false, hfill,
        Option.map_some]
    refine ⟨_, hstep, hbuffer', fun pkt hm => ?_, fun _ => ?_⟩
    · exact h.whole.seen op.ts pkt (List.append_nil s.delivered ▸ hm)
    · show SincePayloadStart (s.seen ++ [op.ts]) pkt'.bytes
      rw [hbytes]
      exact (h.opened hopen).more hts
  · have hclosed : s.pp.start = false := Bool.eq_false_iff.mpr hopen
    have hstep : pesStep s op = some ⟨s.pp, s.seen ++ [op.ts], s.delivered ++ []⟩ := by
      unfold pesStep swdmxPesParserTsPacketCb
      rw [if_neg hno]
      simp only [bind, Option.bind_some, hclosed, if_true, Option.map_some]
    refine ⟨_, hstep, h.buffer, fun pkt hm => ?_, fun hc => absurd hc hopen⟩
    exact h.whole.seen op.ts pkt (List.append_nil s.delivered ▸ hm)

/-- For every sequence of TS packets and every outcome of the reallocations: while no payload of an
open packet is lost to a failed one, nothing is written behind the buffer and every packet that is
delivered is whole. -/
theorem delivered_whole (raw : Pespacket) (ops : List PesInput)
    (hg : Guarded pesStep PayloadKept (pesRunNew raw) ops) :
    (∃ t, run pesStep (pesRunNew raw) ops = some t) ∧
      Always pesStep DeliversWhole (pesRunNew raw) ops := by
  have hkeep (s : PesRun) (op : PesInput) (h : PesInv s) (hok : PayloadKept s op) :
      ∃ s', pesStep s op = some s' ∧ PesInv s' := by
    by_cases hts : op.ts.payloadStart = 0
    · exact pesStep_more h hts hok
    · exact pesStep_start h hts hok
  obtain ⟨hdefined, halways⟩ := defined_of_guarded hkeep (pesInv_new raw) hg
  exact ⟨hdefined, halways.imp fun s h => h.whole⟩

/-- A TS packet with this payload. -/
def tsOf (payloadStart : UInt8) (payload : List UInt8) : Tspacket where
  pid := 256
  payloadStart := payloadStart
  priority := 0
  error := 0
  scramble := 0
  cc := 0
  packet := []
  adpField := none
  payload := some payload

/-- A packet whose fields are all zero. -/
def zeroPkt : Pespacket := ⟨false, false, 0, 0, 0, [], 0, 0, 0⟩

/-- A whole packet of two TS packets, and the start of the next one. -/
def wholeInputs : List PesInput :=
  [⟨tsOf 1 [0, 0, 1, 0xe0, 0, 0], some fun _ => 0⟩, ⟨tsOf 0 [0x80, 0, 0, 7], none⟩,
    ⟨tsOf 1 [0, 0, 1], none⟩]

theorem delivered_whole_inputs :
    (∃ t, run pesStep (pesRunNew zeroPkt) wholeInputs = some t) ∧
      Always pesStep DeliversWhole (pesRunNew zeroPkt) wholeInputs :=
  delivered_whole zeroPkt wholeInputs (by decide +kernel)

/-- The first payload is lost to a failed reallocation, and the second one looks like a packet. -/
def lostInputs : List PesInput :=
  [⟨tsOf 1 [0, 0, 1, 0xe0, 0, 10, 0x80], none⟩,
    ⟨tsOf 0 [0, 0, 1, 0xe0, 0, 0, 0x80, 0, 0, 7], some fun _ => 0⟩, ⟨tsOf 1 [0, 0, 1], none⟩]

theorem lostInputs_run :
    (run pesStep (pesRunNew zeroPkt) lostInputs).map
        (fun t => (t.seen, t.delivered.map fun pkt => (pkt.valid, pkt.bytes))) =
      some (lostInputs.map PesInput.ts, [(true, [0, 0, 1, 0xe0, 0, 0, 0x80, 0, 0, 7])]) := by
  decide +kernel

/-- The second payload alone is delivered as a valid packet. -/
theorem lostPayload_delivered : ∃ t, run pesStep (pesRunNew zeroPkt) lostInputs = some t ∧
    ∃ pkt ∈ t.delivered, pkt.valid = true ∧ ¬ WholePacket t.seen pkt.bytes := by
  obtain ⟨t, ht, heq⟩ := Option.map_eq_some_iff.mp lostInputs_run
  obtain ⟨hseen, hdelivered⟩ := Prod.mk.inj heq
  obtain ⟨pkt, hm, hpkt⟩ := List.mem_map.mp (hdelivered ▸ List.mem_singleton_self _)
  obtain ⟨hvalid, hbytes⟩ := Prod.mk.inj hpkt
  refine ⟨t, ht, pkt, hm, hvalid, ?_⟩
  rw [hseen, hbytes]
  rintro ⟨upto, next, after, hsplit, -, before, first, more, rfl, hfirst, -, hwhole⟩
  rw [List.append_assoc, List.cons_append] at hsplit
  rcases before with _ | ⟨b0, _ | ⟨b1, before⟩⟩
  · -- the only packet that can have started it has another first payload
    obtain ⟨rfl, -⟩ := List.cons.inj hsplit
    have hhead : ([0, 0, 1, 0xe0, 0, 0, 0x80] : List UInt8) = [0, 0, 1, 0xe0, 0, 10, 0x80] :=
      congrArg (List.take 7) hwhole
    exact absurd hhead (by decide)
  · obtain ⟨-, hsplit⟩ := List.cons.inj hsplit
    obtain ⟨rfl, -⟩ := List.cons.inj hsplit
    exact hfirst rfl
  · -- behind the second start there is no third
    have hcount := congrArg List.length hsplit
    simp only [lostInputs, List.map_cons, List.map_nil, List.length_cons, List.length_append,
      List.length_nil] at hcount
    omega

end

end MediaModules.Demux
