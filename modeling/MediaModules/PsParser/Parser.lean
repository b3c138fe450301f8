import MediaModules.Lib.Words

/-!
# The program-stream parser

The hardware stops at each start code, and the interrupt handler pops the header of the packet from the
parser's FIFO, byte by byte, and tells the hardware how many of the bytes that follow to store or to
discard. A call that pops more bytes than there are does not come to an end.
-/
namespace MediaModules.PsParser

open Lib.Words

/-- A computation that pops bytes from `PFIFO_DATA`. -/
abbrev Pop := StateT (List UInt8) Option

/-- `PARSER_POP`. -/
def pop : Pop UInt8
  | [] => none
  | b :: bytes => some (b, bytes)

/-- `n` bytes that are popped and not looked at. -/
def skip (n : Nat) : Pop Unit := fun bytes =>
  if n ≤ bytes.length then some ((), bytes.drop n) else none

/-- The two streams that are counted. -/
inductive Es
  | video
  | audio
deriving DecidableEq, Repr

/-- `audio_first_access`. -/
inductive FirstAccess
  | arm
  | poping
  | done
deriving DecidableEq, Repr

/-- `video_auto_flush_state`. -/
inductive AutoFlush
  | idle
  | monitor
  | trigger
  | done
deriving DecidableEq, Repr

/-- The `type` of `parser_process`: 0, 1 and 2. -/
inductive PacketType
  | video
  | audio
  | privateStream
deriving DecidableEq, Repr

/-- What the hardware does next, with the size it is given. -/
inductive Action
  | searchStartCode
  | sendVideo (size : Int)
  | sendAudio (size : Int)
  | sendSubpic (size : Int)
  | discardSearch (size : Int)
  | discardOnly (size : Int)
  | videoFlush
deriving DecidableEq, Repr

/-- A call of `pts_checkin_offset`. -/
structure PtsCheckin where
  es : Es
  offset : Int
  pts : UInt32
deriving DecidableEq, Repr

/-- The statics of the parser. -/
structure Parser where
  audioId : UInt8
  videoId : UInt8
  subId : UInt8
  subIdMax : UInt8
  audioFirstAccess : FirstAccess
  packetRemaining : Int
  videoDataParsed : Int
  audioDataParsed : Int
  ptsEquDtsFlag : Bool
  firstApts : UInt32
  firstVpts : UInt32
  audioGotFirstPts : Bool
  videoGotFirstDts : Bool
  subGotFirstPts : Bool
  subBlockFound : Bool
  videoAutoFlushState : AutoFlush
  audioLastPts : UInt32
  audioMonitorPts : UInt32
deriving DecidableEq, Repr

/-- What a call comes to. -/
structure Outcome where
  action : Action
  checkins : List PtsCheckin
  parser : Parser

section header

/-- What `parser_process` knows behind the header of a packet. -/
structure PesHeader where
  packetLen : Int
  pts : UInt32
  dts : UInt32
  hasPts : Bool
  hasDts : Bool
deriving DecidableEq, Repr

/-- The last four bytes of a timestamp, behind `first`. -/
def popTimestamp (first : UInt8) : Pop UInt32 := do
  let b1 ← pop
  let b2 ← pop
  let b3 ← pop
  let b4 ← pop
  return ((first.toUInt32 >>> 1) &&& 7) <<< 30 ||| b1.toUInt32 <<< 22 |||
    (b2.toUInt32 >>> 1) <<< 15 ||| b3.toUInt32 <<< 7 ||| b4.toUInt32 >>> 1

/-- `while (header_len)`: the count is an `s16` that goes down to zero, through its whole range when
it starts below. -/
def skipHeader (headerLen : Int) : Pop Unit := skip (headerLen % 65536).toNat

/-- A part of the header that is there when its flag is. -/
def skipIf (flag : Bool) (n : Nat) : Pop Unit := if flag then skip n else pure ()

/-- The part behind `PES_extension_flag`. -/
def mpeg2Extension (headerLen : Int) : Pop Unit := do
  let misc ← pop
  let headerLen := headerLen - 1
  let private128 := misc &&& 0x80 ≠ 0 ∧ headerLen ≥ 128
  skipIf private128 128
  let headerLen := if private128 then headerLen - 128 else headerLen
  skipIf (misc &&& 0x20 ≠ 0) 2
  let headerLen := if misc &&& 0x20 ≠ 0 then headerLen - 2 else headerLen
  skipIf (misc &&& 0x10 ≠ 0) 2
  let headerLen := if misc &&& 0x10 ≠ 0 then headerLen - 2 else headerLen
  if misc &&& 1 ≠ 0 then
    let temp := (← pop) &&& 0x7f
    skip temp.toNat
    skipHeader (headerLen - temp.toNat)
  else skipHeader headerLen

/-- The header of an MPEG-2 packet behind its length: the timestamps, and the parts that are popped
without a look. The ESCR is popped as six bytes and counted as five. -/
def mpeg2Fields (misc headerLen : UInt8) : Pop (UInt32 × UInt32 × Bool × Bool) := do
  let hasPts : Bool := misc >>> 6 > 1
  let hasDts : Bool := misc >>> 6 > 2
  let pts ← if hasPts then do popTimestamp (← pop) else pure 0
  let dts ← if hasDts then do popTimestamp (← pop) else pure 0
  let len : Int := headerLen.toNat - (if hasPts then 5 else 0) - (if hasDts then 5 else 0)
  skipIf (misc &&& 0x20 ≠ 0) 6
  let len := if misc &&& 0x20 ≠ 0 then len - 5 else len
  skipIf (misc &&& 0x10 ≠ 0) 3
  let len := if misc &&& 0x10 ≠ 0 then len - 3 else len
  skipIf (misc &&& 0x08 ≠ 0) 1
  let len := if misc &&& 0x08 ≠ 0 then len - 1 else len
  skipIf (misc &&& 0x04 ≠ 0) 1
  let len := if misc &&& 0x04 ≠ 0 then len - 1 else len
  skipIf (misc &&& 0x02 ≠ 0) 2
  let len := if misc &&& 0x02 ≠ 0 then len - 2 else len
  if misc &&& 0x01 ≠ 0 then mpeg2Extension len else skipHeader len
  return (pts, dts, hasPts, hasDts)

def mpeg2Header (packetLen : Int) : Pop PesHeader := do
  let misc ← pop
  let headerLen ← pop
  let (pts, dts, hasPts, hasDts) ← mpeg2Fields misc headerLen
  return ⟨packetLen - 2 - headerLen.toNat, pts, dts, hasPts, hasDts⟩

/-- The timestamps of an MPEG-1 packet: the byte at hand is the first of them, or there is none. -/
def mpeg1Stamps (temp : UInt8) (packetLen : Int) : Pop PesHeader :=
  if temp >>> 4 = 2 then do
    let pts ← popTimestamp temp
    return ⟨packetLen - 4, pts, 0, true, false⟩
  else if temp >>> 4 = 3 then do
    let pts ← popTimestamp temp
    let first ← pop
    let dts ← popTimestamp first
    return ⟨packetLen - 9, pts, dts, true, true⟩
  else return ⟨packetLen, 0, 0, false, false⟩

/-- The header of an MPEG-1 packet behind the stuffing. -/
def mpeg1Fields (temp : UInt8) (packetLen : Int) : Pop PesHeader :=
  if temp >>> 6 = 1 then do
    let _ ← pop
    let temp ← pop
    mpeg1Stamps temp (packetLen - 2)
  else mpeg1Stamps temp packetLen

/-- The header of an MPEG-1 packet: stuffing bytes in front. -/
def mpeg1Header (temp : UInt8) (packetLen : Int) : Pop PesHeader := fun bytes =>
  if temp = 0xff then
    match bytes with
    | [] => none
    | b :: bytes => mpeg1Header b (packetLen - 1) bytes
  else mpeg1Fields temp packetLen bytes

/-- The first half of `parser_process`. -/
def pesHeader (packetLen : Int) : Pop PesHeader := do
  let temp ← pop
  if temp >>> 6 = 2 then mpeg2Header (packetLen - 1) else mpeg1Header temp (packetLen - 1)

end header

section process

variable (p : Parser)

/-- `ptsmgr_vpts_checkin`. -/
def ptsmgrVptsCheckin (pts : UInt32) : List PtsCheckin × Parser :=
  ([⟨.video, p.videoDataParsed, pts⟩],
    if p.videoGotFirstDts then p else { p with videoGotFirstDts := true, firstVpts := pts })

/-- The state of the automatic flush after a timestamp of the audio stream. -/
def monitorFlush (pts : UInt32) : Parser :=
  let p := { p with audioLastPts := pts }
  let p := if p.videoAutoFlushState = .idle ∧ p.videoGotFirstDts then
    { p with videoAutoFlushState := .monitor, audioMonitorPts := pts } else p
  if p.videoAutoFlushState = .monitor ∧
      s32 ((p.audioLastPts.toNat : Int) - p.audioMonitorPts.toNat) > 90000 then
    { p with videoAutoFlushState := .trigger }
  else p

/-- `ptsmgr_apts_checkin`. -/
def ptsmgrAptsCheckin (pts : UInt32) : List PtsCheckin × Parser :=
  ([⟨.audio, p.audioDataParsed, pts⟩],
    monitorFlush (if p.audioGotFirstPts then p
      else { p with audioGotFirstPts := true, firstApts := pts }) pts)

/-- The checkin of an audio packet that has a timestamp. -/
def aptsCheckin (h : PesHeader) : List PtsCheckin × Parser :=
  if h.hasPts then ptsmgrAptsCheckin p h.pts else ([], p)

/-- `SET_BLOCK` for the audio stream. -/
def storeAudio (checkins : List PtsCheckin) (size : Int) : Outcome :=
  ⟨.sendAudio size, checkins, { p with audioDataParsed := u32 (p.audioDataParsed + size) }⟩

/-- The end of every audio branch: the timestamp is checked in, and the packet is stored once there
has been one. -/
def audioPacket (h : PesHeader) (packetLen : Int) : Outcome :=
  let r := aptsCheckin p h
  if r.2.audioGotFirstPts then storeAudio r.2 r.1 packetLen
  else ⟨.discardSearch packetLen, r.1, r.2⟩

/-- The end of a first access without bytes to discard. -/
def firstAccessDone (checkins : List PtsCheckin) (packetLen : Int) : Outcome :=
  let p := { p with audioFirstAccess := .done }
  if packetLen = 0 then ⟨.searchStartCode, checkins, p⟩ else storeAudio p checkins packetLen

/-- The end of a first access with `size` bytes to discard: the rest is stored at the next
interrupt. -/
def firstAccessDiscard (checkins : List PtsCheckin) (packetLen size : Int) : Outcome :=
  ⟨.discardOnly size, checkins,
    { p with packetRemaining := u32 (packetLen - size), audioFirstAccess := .poping }⟩

/-- The timestamps of a video packet that are checked in: the first, and then those of packets that
have both, and have them equal once there has been such a packet. -/
def vptsCheckin (h : PesHeader) : List PtsCheckin × Parser :=
  if p.videoGotFirstDts then
    if h.hasPts ∧ h.hasDts then
      if p.ptsEquDtsFlag then
        if h.dts = h.pts then ptsmgrVptsCheckin p h.pts else ([], p)
      else
        ptsmgrVptsCheckin { p with ptsEquDtsFlag := h.dts = h.pts } h.pts
    else ([], p)
  else if h.hasPts then ptsmgrVptsCheckin p h.pts
  else ptsmgrVptsCheckin p h.dts

/-- `type == 0` of `parser_process`. -/
def videoPacket (h : PesHeader) : Outcome :=
  let p := if p.videoAutoFlushState = .monitor then { p with audioMonitorPts := p.audioLastPts }
    else p
  let invalidPts : Bool := h.pts = 0 ∧ h.dts = 0xffffffff
  let r := if (h.hasPts ∨ h.hasDts) ∧ ¬ invalidPts then vptsCheckin p h else ([], p)
  if r.2.videoGotFirstDts ∨ invalidPts then
    ⟨.sendVideo h.packetLen, r.1,
      { r.2 with videoDataParsed := u32 (r.2.videoDataParsed + h.packetLen) }⟩
  else ⟨.discardSearch h.packetLen, r.1, r.2⟩

/-- The 16 bits of a first-access pointer. -/
def firstAccessPointer (hi lo : UInt8) : Int := s16 (256 * hi.toNat + lo.toNat)

/-- The bytes an LPCM first access discards. -/
def lpcmDiscard (hi lo : UInt8) : Int :=
  s16 ((if firstAccessPointer hi lo = 0 then 4 else firstAccessPointer hi lo) - 1)

/-- DVD LPCM audio, behind the stream id. -/
def lpcmPacket (h : PesHeader) (packetLen : Int) : Pop Outcome := do
  let _ ← pop
  let hi ← pop
  let lo ← pop
  let temp := lpcmDiscard hi lo
  if p.audioFirstAccess = .arm then
    if temp ≠ 0 then return firstAccessDiscard p [] (packetLen - 3) temp
    else return firstAccessDone p [] (packetLen - 3)
  else
    skip 3
    return audioPacket p h (packetLen - 3 - 3)

/-- AC3 audio, behind the stream id. -/
def ac3Packet (h : PesHeader) (packetLen : Int) : Pop Outcome := do
  let _ ← pop
  let hi ← pop
  let lo ← pop
  let temp := firstAccessPointer hi lo
  if p.audioFirstAccess = .arm then
    let r := aptsCheckin p h
    if temp > 2 ∧ packetLen - 3 > temp - 2 then
      return firstAccessDiscard r.2 r.1 (packetLen - 3) (temp - 2)
    else return firstAccessDone r.2 r.1 (packetLen - 3)
  else return audioPacket p h (packetLen - 3)

/-- DTS audio, behind the stream id. -/
def dtsPacket (h : PesHeader) (packetLen : Int) : Pop Outcome := do
  skip 3
  let p := if p.audioFirstAccess = .arm then { p with audioFirstAccess := .done } else p
  return audioPacket p h (packetLen - 3)

/-- A DVD sub-picture packet. -/
def subPacket (h : PesHeader) (id : UInt8) (packetLen : Int) : Outcome :=
  let p := { p with subIdMax := max p.subIdMax id }
  if id = p.subId then
    if packetLen = 0 then ⟨.searchStartCode, [], p⟩
    else
      let p := { p with subGotFirstPts := p.subGotFirstPts || h.hasPts }
      if p.subGotFirstPts then ⟨.sendSubpic packetLen, [], { p with subBlockFound := true }⟩
      else ⟨.discardSearch packetLen, [], p⟩
  else ⟨.discardSearch packetLen, [], p⟩

/-- `type == 2` of `parser_process`. -/
def privatePacket (h : PesHeader) : Pop Outcome := do
  let temp ← pop
  let packetLen := h.packetLen - 1
  if temp &&& 0xf8 = 0xa0 ∧ temp = p.audioId then lpcmPacket p h packetLen
  else if temp &&& 0xf8 = 0x80 ∧ temp = p.audioId then ac3Packet p h packetLen
  else if temp &&& 0xf8 = 0x88 ∧ temp = p.audioId then dtsPacket p h packetLen
  else if temp &&& 0xe0 = 0x20 then return subPacket p h temp packetLen
  else return ⟨.discardSearch packetLen, [], p⟩

/-- What is done with a packet that has a payload. -/
def sendPacket (h : PesHeader) : PacketType → Pop Outcome
  | .video => pure (videoPacket p h)
  | .audio => pure (audioPacket p h h.packetLen)
  | .privateStream => privatePacket p h

/-- The second half of `parser_process`. -/
def processPacket (type : PacketType) (h : PesHeader) : Pop Outcome :=
  if h.packetLen = 0 then return ⟨.searchStartCode, [], p⟩ else sendPacket p h type

/-- `parser_process`. -/
def parserProcess (type : PacketType) (packetLen : Int) : Pop Outcome := do
  let h ← pesHeader packetLen
  processPacket p type h

/-- The fields of a pack header, none of which is kept. -/
def packFields : Pop Unit := do
  let temp ← pop
  if temp >>> 6 = 1 then
    skip 8
    let temp := (← pop) &&& 7
    skip temp.toNat
  else skip 4

/-- A flush that is due is done behind a pack header. -/
def flushDue : Outcome :=
  if p.videoAutoFlushState = .trigger then
    ⟨.videoFlush, [], { p with videoAutoFlushState := .done }⟩
  else ⟨.searchStartCode, [], p⟩

def packHeader : Pop Outcome := do
  packFields
  return flushDue p

/-- A packet with the given start code. -/
def packetFound (startCode : Int) : Pop Outcome := do
  let hi ← pop
  let lo ← pop
  let packetLen : Int := 256 * hi.toNat + lo.toNat
  if startCode = p.videoId.toNat then parserProcess p .video packetLen
  else if startCode = p.audioId.toNat then
    if packetLen > 0x1000 then return ⟨.searchStartCode, [], p⟩
    else parserProcess p .audio packetLen
  else if startCode = 0xbb then return ⟨.discardSearch packetLen, [], p⟩
  else if startCode = 0xbd then parserProcess p .privateStream packetLen
  else if startCode = 0xbf then return ⟨.discardSearch packetLen, [], p⟩
  else if startCode < 0xc0 ∨ startCode > 0xc8 then return ⟨.searchStartCode, [], p⟩
  else if packetLen ≠ 0 then return ⟨.discardSearch packetLen, [], p⟩
  else return ⟨.searchStartCode, [], p⟩

/-- `on_start_code_found`. After a first access that discarded bytes, the rest of the packet is
stored; the counts are not touched. -/
def onStartCodeFound (startCode : Int) : Pop Outcome :=
  let p := { p with subBlockFound := false }
  if p.audioFirstAccess = .poping then
    let p := { p with audioFirstAccess := .done }
    if p.packetRemaining ≠ 0 then return ⟨.sendAudio p.packetRemaining, [], p⟩
    else return ⟨.searchStartCode, [], p⟩
  else if startCode = 0xba then packHeader p
  else packetFound p startCode

/-- `psparser_init`, as far as the parser's statics go. -/
def psparserInit (vid aid sid : UInt8) : Parser :=
  { p with
    videoId := vid, audioId := aid, subId := sid
    audioGotFirstPts := false, videoGotFirstDts := false, subGotFirstPts := false
    firstApts := 0, firstVpts := 0, ptsEquDtsFlag := false
    videoAutoFlushState := .idle
    videoDataParsed := 0, audioDataParsed := 0 }

end process

end MediaModules.PsParser
