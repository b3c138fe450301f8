import MediaModules.WriteThread.Allocation

/-!
# The offsets of timestamps in an elementary stream

The parser counts the bytes it has got, and the write thread counts the bytes it still has to give
to it. A timestamp is checked in at the sum of the two, or at the number of bytes the thread ever
took. The direct writes give their bytes to the parser without the thread, and yet take them off the
level of the thread: neither offset counts them.
-/
namespace MediaModules.WriteThread

open Lib Lib.Words Lib.Run

def EINVAL : Int := 22
def ERESTARTSYS : Int := 512

/-- `FETCHBUF_SIZE`. -/
def FETCHBUF_SIZE : Int := 65536

/-- `MAX_DRM_PACKAGE_SIZE`. -/
def MAX_DRM_PACKAGE_SIZE : Int := 0x500000

inductive BufType
  | video
  | audio
  | subtitle
  | hevc
deriving DecidableEq, Repr

/-- A stream buffer with its write thread, and the static counts of the parser. -/
structure EsStream where
  type : BufType
  hasHevcVdec : Bool
  isPhybuf : Bool
  writeThread : WriteTask
  videoDataParsed : Int
  audioDataParsed : Int
  audioRealWp : Int
  audioBufStart : Int
  audioBufEnd : Int

/-- What happens to the data of one write: whether it can be copied to the fetch buffer, how the wait
for the parser ends, and what the two copies to the audio buffer leave uncopied. -/
inductive Fetched
  | done
  | timeoutMoved
  | timeoutStill
  | interrupted
deriving DecidableEq, Repr

structure FetchEnv where
  copied : Bool
  fetched : Fetched
  uncopied : Nat
  uncopied' : Nat

section parser

variable (s : EsStream)

/-- The buffers whose bytes `video_data_parsed` counts. -/
def EsStream.IsVideo : Prop := s.type = .video ∨ s.hasHevcVdec = true ∧ s.type = .hevc

instance : Decidable s.IsVideo := inferInstanceAs (Decidable (_ ∨ _ ∧ _))

/-- The counts after the parser got `len` bytes: `threadrw_update_buffer_level` goes by the same
number. -/
def EsStream.parsedMore (len : Int) : EsStream :=
  { s with
    videoDataParsed := if s.IsVideo then u32 (s.videoDataParsed + len) else s.videoDataParsed
    audioDataParsed := if s.type = .audio then u32 (s.audioDataParsed + len) else s.audioDataParsed
    writeThread := { s.writeThread with
      bufferedDataSize := s32 (s.writeThread.bufferedDataSize - len) } }

/-- `esparser_stbuf_write`: the result, the number of bytes the parser got, and the stream. -/
def esparserStbufWrite (count : Int) (env : FetchEnv) : Int × Int × EsStream :=
  let len := if count > 0 then if s.isPhybuf then count else min count FETCHBUF_SIZE else 0
  if count > 0 ∧ ¬ s.isPhybuf ∧ ¬ env.copied then (-EFAULT, 0, s)
  else if count > 0 ∧ env.fetched = .timeoutStill then (-EAGAIN, 0, s)
  else if count > 0 ∧ env.fetched = .interrupted then (-ERESTARTSYS, 0, s)
  else (s32 len, len, s.parsedMore len)

/-- The last copy of `_esparser_write_s`, behind `len` bytes, and the counts. -/
def writeRest (wp len r : Int) (env : FetchEnv) : Int × Int × EsStream :=
  let got := r - min (env.uncopied' : Int) r
  (s32 (u32 (len + got)), u32 (len + got),
    { s with audioRealWp := u32 (wp + got) }.parsedMore (u32 (len + got)))

/-- `_esparser_write_s`: what does not fit before the end of the audio buffer goes to its start. -/
def esparserWriteS (count : Int) (env : FetchEnv) : Int × Int × EsStream :=
  let wp := s.audioRealWp
  let bufEnd := u32 (s.audioBufEnd + 8)
  if wp + count > bufEnd then
    if wp = bufEnd then (-EAGAIN, 0, { s with audioRealWp := s.audioBufStart })
    else
      let first := u32 (bufEnd - wp)
      if min (env.uncopied : Int) first > 0 then
        let len := first - min (env.uncopied : Int) first
        (s32 len, len, { s with audioRealWp := u32 (wp + len) }.parsedMore len)
      else writeRest s s.audioBufStart first (count - first) env
  else writeRest s wp 0 count env

/-- The write under the mutex of the parser: `_esparser_write_s` for audio, `_esparser_write` for the
others. -/
def lockedWrite (count : Int) (env : FetchEnv) : Int × Int × EsStream :=
  if s.type = .audio then esparserWriteS s count env else esparserStbufWrite s count env

/-- What `esparser_write_ex` finds: the room in the stream buffer before and after, what it may use of
the buffer, the result of the wait, and whether the file is opened without blocking. -/
structure WriteEnv where
  space : Nat
  space' : Nat
  canUse : Nat
  waited : Int
  nonblock : Bool
  fetch : FetchEnv

/-- The number of bytes `esparser_write_ex` goes on with. -/
def writeLen (count : Int) (noblock : Bool) (env : WriteEnv) : Except Int Int :=
  if s.type ≠ .subtitle ∧ (env.space : Int) < count then
    if noblock ∨ env.nonblock then
      if env.space < 256 then .error (-EAGAIN) else .ok env.space
    else
      let len := min ((env.canUse / 8 : Nat) : Int) (u32 count)
      if (env.space' : Int) < len ∧ env.waited < 0 then .error env.waited else .ok len
  else .ok (u32 count)

/-- `esparser_write_ex`: bit 0 of the flags is `phys`, bit 1 is `noblock`. -/
def esparserWriteEx (count : Int) (phys noblock : Bool) (env : WriteEnv) : Int × Int × EsStream :=
  if count = 0 then (-EINVAL, 0, s)
  else
    match writeLen s count noblock env with
    | .error e => (e, 0, s)
    | .ok len =>
      lockedWrite { s with isPhybuf := if phys then true else s.isPhybuf } (min len (u32 count))
        env.fetch

/-- A turn of the write thread, with `esparser_write_ex` as its low-level write: it writes from the
physical address, or from the virtual one when the writes are manual, and never blocks. -/
def parserWork (env : WriteEnv) : Option EsStream :=
  match s.writeThread.datafifo with
  | [] => some s
  | .user _ :: _ => none
  | .block i :: data =>
    (s.writeThread.contents (s.writeThread.buf i)).map fun bytes =>
      let r := esparserWriteEx s (s.writeThread.buf i).dataSize (!s.writeThread.manualWrite) true env
      { r.2.2 with writeThread := (finishWrite r.2.2.writeThread i data bytes r.1).2.2 }

/-- The offset `es_vpts_checkin` or `es_apts_checkin` checks a timestamp in at. -/
def levelOffset : Int :=
  if s.type = .audio then u32 (s.audioDataParsed + s.writeThread.bufferedDataSize)
  else u32 (s.videoDataParsed + s.writeThread.bufferedDataSize)

/-- The offset of `es_vpts_checkin_us64` and `es_apts_checkin_us64`. -/
def dataOffset : Int := u32 s.writeThread.dataOffset

end parser

/-- What `drm_write` reads of the user's `struct drm_info`. -/
structure DrmInfo where
  drmFlag : UInt32
  drmHasesdata : UInt32
  drmPktsize : UInt32

/-- The head of `drm_write`: the number of bytes to write, and whether they lie at a physical
address. -/
def drmHead (count : Int) (info : DrmInfo) : Except Int (Int × Bool) :=
  if info.drmFlag &&& 0x80 ≠ 0 ∧ info.drmHasesdata = 0 then
    if (info.drmPktsize.toNat : Int) > MAX_DRM_PACKAGE_SIZE then .error (-EINVAL)
    else .ok (info.drmPktsize.toNat, true)
  else if info.drmHasesdata = 1 then
    if (info.drmPktsize.toNat : Int) > MAX_DRM_PACKAGE_SIZE then .error (-EINVAL)
    else .ok (info.drmPktsize.toNat, false)
  else .ok (u32 count, false)

/-- A call of `drm_write` in its loop. -/
structure DrmCall where
  len : Int
  totalcount : Int
  havewritebytes : Int
deriving DecidableEq, Repr

/-- The end of a turn of the loop, after a write of `r` bytes: the call goes on or is over. -/
def DrmCall.next (c : DrmCall) (r : Int) : Option DrmCall :=
  let len := min c.len c.totalcount
  let have' := u32 (c.havewritebytes + r)
  if r < 0 ∨ have' = c.totalcount then none
  else if len > 0 ∧ have' < c.totalcount then
    if u32 (len - r) = 0 then none else some ⟨u32 (len - r), c.totalcount, have'⟩
  else some ⟨len, c.totalcount, have'⟩

/-- A timestamp that was checked in, with the bytes accepted from user space until then. -/
structure Checkin where
  us64 : Bool
  offset : Int
  accepted : Int
deriving DecidableEq, Repr

/-- A stream with the calls of `drm_write` that are under way, the bytes accepted from user space,
those of them that the direct writes took, and the timestamps that were checked in. -/
structure EsRun where
  stream : EsStream
  drmCalls : List DrmCall
  accepted : Int
  direct : Int
  checkins : List Checkin

inductive EsOp
  | write (buf : Nat) (data : UserData) (uncopied : Nat → Nat)
  | work (env : WriteEnv)
  | writeEx (count : Nat) (phys noblock : Bool) (env : WriteEnv)
  | drmBegin (count : Nat) (copied : Bool) (info : DrmInfo)
  | drmTurn (k : Nat) (refused : Bool) (env : FetchEnv)
  | checkin (us64 : Bool)

/-- The run after a direct write. -/
def EsRun.wrote (s : EsRun) (given : Int) (stream : EsStream) : EsRun :=
  { s with stream := stream, accepted := s.accepted + given, direct := s.direct + given }

def EsRun.drmStart (s : EsRun) (count : Nat) (copied : Bool) (info : DrmInfo) : EsRun :=
  if count = 0 ∨ ¬ copied then s
  else
    match drmHead count info with
    | .error _ => s
    | .ok (realcount, phys) =>
      { s with
        stream := { s.stream with isPhybuf := phys }
        drmCalls := if realcount > 0 then s.drmCalls ++ [⟨realcount, realcount, 0⟩] else s.drmCalls }

/-- A turn of the `k`-th call of `drm_write`: it may find no room. -/
def EsRun.drmTurn (s : EsRun) (k : Nat) (refused : Bool) (env : FetchEnv) : EsRun :=
  match s.drmCalls[k]? with
  | none => s
  | some c =>
    if refused then { s with drmCalls := s.drmCalls.eraseIdx k }
    else
      let r := lockedWrite s.stream (min c.len c.totalcount) env
      { s.wrote r.2.1 r.2.2 with
        drmCalls := match c.next r.1 with
          | some c' => s.drmCalls.set k c'
          | none => s.drmCalls.eraseIdx k }

def esStep (s : EsRun) : EsOp → Option EsRun
  | .write buf data uncopied =>
    (threadrwWriteIn s.stream.writeThread buf data uncopied).map fun r =>
      { s with
        stream := { s.stream with writeThread := r.2.2 }
        accepted := s.accepted + r.1 }
  | .work env => (parserWork s.stream env).map fun stream => { s with stream := stream }
  | .writeEx count phys noblock env =>
    let r := esparserWriteEx s.stream count phys noblock env
    some (s.wrote r.2.1 r.2.2)
  | .drmBegin count copied info => some (s.drmStart count copied info)
  | .drmTurn k refused env => some (s.drmTurn k refused env)
  | .checkin us64 =>
    some { s with checkins := s.checkins ++
      [⟨us64, if us64 then dataOffset s.stream else levelOffset s.stream, s.accepted⟩] }

/-- `esparser_init` of a stream that gets a write thread: a page or sixteen pages for each block. -/
def esparserInit (type : BufType) (hasHevcVdec : Bool) (old : EsStream) (wp bufEnd : Int)
    (env : MmEnv) (room : Bool) : Option EsRun :=
  if type = .subtitle ∨ type = .hevc ∧ hasHevcVdec = false then none
  else
    (threadrwAlloc (if type = .audio then 20 else 32) (if type = .audio then 4096 else 65536)
      (type = .audio) env room).map fun task =>
        { stream :=
            { old with
              type := type
              hasHevcVdec := hasHevcVdec
              writeThread := task
              videoDataParsed := if type = .audio then old.videoDataParsed else 0
              audioDataParsed := if type = .audio then 0 else old.audioDataParsed
              audioRealWp := if type = .audio then wp else old.audioRealWp
              audioBufStart := if type = .audio then wp else old.audioBufStart
              audioBufEnd := if type = .audio then bufEnd else old.audioBufEnd }
          drmCalls := [], accepted := 0, direct := 0, checkins := [] }

/-- The timestamps were checked in at the number of bytes accepted until then. -/
def OffsetsRight (s : EsRun) : Prop := ∀ c ∈ s.checkins, c.offset = u32 c.accepted

/-- The parser counts the bytes of the buffer. -/
def EsStream.Counted (s : EsStream) : Prop := s.type = .audio ∨ s.IsVideo

/-- A step of the stream that leaves both offsets as they are. -/
structure SameOffsets (s s' : EsStream) : Prop where
  type : s'.type = s.type
  vdec : s'.hasHevcVdec = s.hasHevcVdec
  data : dataOffset s' = dataOffset s
  level : s.Counted → levelOffset s' = levelOffset s

section same

variable {s s' s'' : EsStream} {count len : Int} {env : FetchEnv}

theorem counted_congr (htype : s'.type = s.type) (hvdec : s'.hasHevcVdec = s.hasHevcVdec) :
    s'.Counted ↔ s.Counted := by
  rw [EsStream.Counted, EsStream.Counted, EsStream.IsVideo, EsStream.IsVideo, htype, hvdec]

theorem SameOffsets.refl (s : EsStream) : SameOffsets s s := ⟨rfl, rfl, rfl, fun _ => rfl⟩

theorem SameOffsets.trans (h : SameOffsets s s') (h' : SameOffsets s' s'') : SameOffsets s s'' :=
  ⟨h'.type.trans h.type, h'.vdec.trans h.vdec, h'.data.trans h.data, fun hc =>
    (h'.level ((counted_congr h.type h.vdec).mpr hc)).trans (h.level hc)⟩

/-- What the parser has got goes off the level of the thread. -/
theorem sameOffsets_parsedMore (s : EsStream) (len : Int) : SameOffsets s (s.parsedMore len) := by
  refine ⟨rfl, rfl, rfl, fun hc => ?_⟩
  have hsum : ∀ parsed level : Int, u32 (u32 (parsed + len) + s32 (level - len)) =
      u32 (parsed + level) := by
    intro parsed level
    simp only [u32, s32]
    omega
  show (if s.type = .audio then _ else _) = if s.type = .audio then _ else _
  by_cases haudio : s.type = .audio
  · rw [if_pos haudio, if_pos haudio]
    dsimp only [EsStream.parsedMore]
    rw [if_pos haudio]
    exact hsum _ _
  · rw [if_neg haudio, if_neg haudio]
    dsimp only [EsStream.parsedMore]
    rw [if_pos (hc.resolve_left haudio)]
    exact hsum _ _

/-- The write pointer of the audio buffer and the kind of the addresses do not matter. -/
theorem sameOffsets_pointers (s : EsStream) (wp : Int) (phys : Bool) :
    SameOffsets s { s with audioRealWp := wp, isPhybuf := phys } :=
  ⟨rfl, rfl, rfl, fun _ => rfl⟩

theorem sameOffsets_writeRest (wp r : Int) : SameOffsets s (writeRest s wp len r env).2.2 :=
  (sameOffsets_pointers s _ s.isPhybuf).trans (sameOffsets_parsedMore _ _)

theorem sameOffsets_lockedWrite : SameOffsets s (lockedWrite s count env).2.2 := by
  rw [lockedWrite]
  split
  · rw [esparserWriteS]
    split
    · split
      · exact sameOffsets_pointers s _ s.isPhybuf
      · dsimp only
        split
        · exact (sameOffsets_pointers s _ s.isPhybuf).trans (sameOffsets_parsedMore _ _)
        · exact sameOffsets_writeRest _ _
    · exact sameOffsets_writeRest _ _
  · rw [esparserStbufWrite]
    split
    · exact SameOffsets.refl s
    · split
      · exact SameOffsets.refl s
      · split
        · exact SameOffsets.refl s
        · exact sameOffsets_parsedMore s _

theorem sameOffsets_writeEx {phys noblock : Bool} {env : WriteEnv} :
    SameOffsets s (esparserWriteEx s count phys noblock env).2.2 := by
  rw [esparserWriteEx]
  split
  · exact SameOffsets.refl s
  · split
    · exact SameOffsets.refl s
    · exact (sameOffsets_pointers s s.audioRealWp _).trans sameOffsets_lockedWrite

/-- The end of a turn of the write thread counts the bytes in a count of its own. -/
theorem sameOffsets_finishWrite (i : Nat) (data : List Address) (bytes : List UInt8) (ret : Int) :
    SameOffsets s
      { s with writeThread := (finishWrite s.writeThread i data bytes ret).2.2 } := by
  rw [finishWrite]
  split
  · exact SameOffsets.refl s
  · split
    · exact ⟨rfl, rfl, rfl, fun _ => rfl⟩
    · split
      · exact ⟨rfl, rfl, rfl, fun _ => rfl⟩
      · exact ⟨rfl, rfl, rfl, fun _ => rfl⟩

theorem sameOffsets_parserWork {env : WriteEnv} (h : parserWork s env = some s') :
    SameOffsets s s' := by
  rw [parserWork] at h
  split at h
  · exact Option.some.inj h ▸ SameOffsets.refl s
  · cases h
  · obtain ⟨bytes, -, rfl⟩ := Option.map_eq_some_iff.mp h
    exact sameOffsets_writeEx.trans (sameOffsets_finishWrite _ _ _ _)

end same

section write

variable {t t' : WriteTask} {buf : Nat} {left : List UInt8} {uncopied : Nat → Nat}

theorem once_counts {n : Nat} {ret : Int}
    (h : threadrwWriteOnece t buf left n = some (ret, t')) :
    t'.bufferedDataSize = t.bufferedDataSize ∧ t'.dataOffset = t.dataOffset := by
  rw [threadrwWriteOnece] at h
  split at h
  · obtain ⟨-, rfl⟩ := Prod.mk.inj (Option.some.inj h)
    exact ⟨rfl, rfl⟩
  · cases h
  · obtain ⟨memory, -, heq⟩ := Option.map_eq_some_iff.mp h
    split at heq
    · obtain ⟨-, rfl⟩ := Prod.mk.inj heq
      exact ⟨rfl, rfl⟩
    · obtain ⟨-, rfl⟩ := Prod.mk.inj heq
      exact ⟨rfl, rfl⟩

theorem writeLoop_counts (turns : Nat) {off off' : Nat} {ret : Int}
    (h : writeLoop buf uncopied turns t off left = some (off', ret, t')) :
    t'.bufferedDataSize = t.bufferedDataSize ∧ t'.dataOffset = t.dataOffset := by
  induction turns generalizing t off left with
  | zero =>
    obtain ⟨-, heq⟩ := Prod.mk.inj (Option.some.inj h)
    obtain ⟨-, rfl⟩ := Prod.mk.inj heq
    exact ⟨rfl, rfl⟩
  | succ turns ih =>
    rw [writeLoop] at h
    split at h
    · obtain ⟨-, heq⟩ := Prod.mk.inj (Option.some.inj h)
      obtain ⟨-, rfl⟩ := Prod.mk.inj heq
      exact ⟨rfl, rfl⟩
    · obtain ⟨⟨ret', u⟩, honce, hrest⟩ := Option.bind_eq_some_iff.mp h
      have hsame := once_counts honce
      split at hrest
      · obtain ⟨-, heq⟩ := Prod.mk.inj (Option.some.inj hrest)
        obtain ⟨-, rfl⟩ := Prod.mk.inj heq
        exact hsame
      · have hnext := ih hrest
        exact ⟨hnext.1.trans hsame.1, hnext.2.trans hsame.2⟩

/-- A write counts the bytes it took, once in the level and once in the offset. -/
theorem writeIn_counts {data : UserData} {off : Nat} {ret : Int}
    (h : threadrwWriteIn t buf data uncopied = some (off, ret, t')) :
    u32 t'.bufferedDataSize = u32 (t.bufferedDataSize + off) ∧
      u32 t'.dataOffset = u32 (t.dataOffset + off) := by
  obtain ⟨⟨off', ret', u⟩, hloop, heq⟩ := Option.map_eq_some_iff.mp h
  obtain ⟨hoff, heq⟩ := Prod.mk.inj heq
  obtain ⟨-, htask⟩ := Prod.mk.inj heq
  dsimp only at hoff htask
  subst hoff htask
  obtain ⟨hlevel, hoffset⟩ := writeLoop_counts _ hloop
  dsimp only [WriteTask.counted]
  split
  · dsimp only
    rw [u32_s32, u32_s32, hlevel, hoffset]
    exact ⟨rfl, rfl⟩
  · rename_i hnone
    have hzero : off' = 0 := by omega
    rw [hzero, hlevel, hoffset, Int.natCast_zero, Int.add_zero, Int.add_zero]
    exact ⟨rfl, rfl⟩

end write

section runs

variable {s s' : EsRun}

/-- Both offsets are the number of bytes the write thread took. -/
structure Booked (s : EsRun) : Prop where
  counted : s.stream.Counted
  level : levelOffset s.stream = u32 (s.accepted - s.direct)
  data : dataOffset s.stream = u32 (s.accepted - s.direct)
  right : OffsetsRight s

/-- No byte has been written directly when a timestamp is checked in, up to a multiple of `2 ^ 32`. -/
def NoneDirect (s : EsRun) : EsOp → Prop
  | .checkin _ => u32 s.direct = 0
  | _ => True

instance (s : EsRun) : (op : EsOp) → Decidable (NoneDirect s op)
  | .checkin _ => inferInstanceAs (Decidable (_ = _))
  | .write _ _ _ | .work _ | .writeEx _ _ _ _ | .drmBegin _ _ _ | .drmTurn _ _ _ => .isTrue trivial

/-- A step of the stream outside the offsets, with as many bytes accepted as written directly. -/
theorem Booked.same (h : Booked s) (hsame : SameOffsets s.stream s'.stream)
    (hbytes : s'.accepted - s'.direct = s.accepted - s.direct)
    (hcheckins : s'.checkins = s.checkins) : Booked s' := by
  refine ⟨(counted_congr hsame.type hsame.vdec).mpr h.counted, ?_, ?_, ?_⟩
  · rw [hsame.level h.counted, h.level, hbytes]
  · rw [hsame.data, h.data, hbytes]
  · rw [OffsetsRight, hcheckins]
    exact h.right

theorem booked_wrote (h : Booked s) (given : Int) {stream : EsStream}
    (hsame : SameOffsets s.stream stream) : Booked (s.wrote given stream) := by
  have hbytes : s.accepted + given - (s.direct + given) = s.accepted - s.direct := by omega
  exact h.same hsame hbytes rfl

theorem booked_write (h : Booked s) {buf : Nat} {data : UserData} {uncopied : Nat → Nat}
    (hs : esStep s (.write buf data uncopied) = some s') : Booked s' := by
  obtain ⟨⟨off, ret, t⟩, hwrite, rfl⟩ := Option.map_eq_some_iff.mp hs
  obtain ⟨hlevel, hdata⟩ := writeIn_counts hwrite
  have hmore : ∀ parsed level level' : Int, u32 level' = u32 (level + off) →
      u32 (parsed + level) = u32 (s.accepted - s.direct) →
      u32 (parsed + level') = u32 (s.accepted + off - s.direct) := by
    intro parsed level level' h1 h2
    simp only [u32] at h1 h2 ⊢
    omega
  refine ⟨h.counted, ?_, ?_, h.right⟩
  · have hold := h.level
    rw [levelOffset] at hold ⊢
    dsimp only
    split
    · rename_i haudio
      rw [if_pos haudio] at hold
      exact hmore _ _ _ hlevel hold
    · rename_i haudio
      rw [if_neg haudio] at hold
      exact hmore _ _ _ hlevel hold
  · have hold := h.data
    rw [dataOffset] at hold ⊢
    dsimp only
    simp only [u32] at hdata hold ⊢
    omega

theorem booked_drmStart (h : Booked s) (count : Nat) (copied : Bool) (info : DrmInfo) :
    Booked (s.drmStart count copied info) := by
  rw [EsRun.drmStart]
  split
  · exact h
  · split
    · exact h
    · exact h.same (sameOffsets_pointers s.stream s.stream.audioRealWp _) rfl rfl

theorem booked_drmTurn (h : Booked s) (k : Nat) (refused : Bool) (env : FetchEnv) :
    Booked (s.drmTurn k refused env) := by
  rw [EsRun.drmTurn]
  split
  · exact h
  · split
    · exact h.same (SameOffsets.refl _) rfl rfl
    · exact (booked_wrote h _ sameOffsets_lockedWrite).same (SameOffsets.refl _) rfl rfl

/-- The timestamp is checked in at the number of bytes the write thread took. -/
theorem checkin_offset (h : Booked s) (us64 : Bool) :
    (if us64 then dataOffset s.stream else levelOffset s.stream) = u32 (s.accepted - s.direct) := by
  cases us64 with
  | true => exact h.data
  | false => exact h.level

theorem booked_esStep (s : EsRun) (op : EsOp) (s' : EsRun) (h : Booked s) (hok : NoneDirect s op)
    (hs : esStep s op = some s') : Booked s' := by
  cases op with
  | write buf data uncopied => exact booked_write h hs
  | work env =>
    obtain ⟨stream, hwork, rfl⟩ := Option.map_eq_some_iff.mp hs
    exact h.same (sameOffsets_parserWork hwork) rfl rfl
  | writeEx count phys noblock env =>
    obtain rfl := Option.some.inj hs
    exact booked_wrote h _ sameOffsets_writeEx
  | drmBegin count copied info =>
    obtain rfl := Option.some.inj hs
    exact booked_drmStart h count copied info
  | drmTurn k refused env =>
    obtain rfl := Option.some.inj hs
    exact booked_drmTurn h k refused env
  | checkin us64 =>
    obtain rfl := Option.some.inj hs
    refine ⟨h.counted, h.level, h.data, fun c hc => ?_⟩
    rcases List.mem_append.mp hc with hold | hnew
    · exact h.right c hold
    · obtain rfl := List.mem_singleton.mp hnew
      dsimp only
      rw [checkin_offset h]
      have hzero : u32 s.direct = 0 := hok
      simp only [u32] at hzero ⊢
      omega

/-- A timestamp checked in after direct writes is short of their bytes. -/
theorem checkin_short (s : EsRun) (op : EsOp) (h : Booked s) (hok : ¬ NoneDirect s op) :
    ∃ s', esStep s op = some s' ∧ ¬ OffsetsRight s' := by
  cases op with
  | checkin us64 =>
    refine ⟨_, rfl, fun hright => hok ?_⟩
    have hlast := hright _ (List.mem_append_right _ (List.mem_singleton.mpr rfl))
    dsimp only at hlast
    rw [checkin_offset h] at hlast
    show u32 s.direct = 0
    simp only [u32] at hlast ⊢
    omega
  | write | work | writeEx | drmBegin | drmTurn => exact absurd trivial hok

variable {type : BufType} {hasHevcVdec : Bool} {old : EsStream} {wp bufEnd : Int} {env : MmEnv}
  {room : Bool}

theorem allocLoop_counts {source : BlockSource} {newNum blockSize : Int} {left i : Nat}
    {t : WriteTask} :
    (allocLoop env source newNum blockSize left i t).bufferedDataSize = t.bufferedDataSize ∧
      (allocLoop env source newNum blockSize left i t).dataOffset = t.dataOffset := by
  induction left generalizing t i with
  | zero => exact ⟨rfl, rfl⟩
  | succ left ih =>
    cases source with
    | shared startAddr totalMm => exact ih
    | coherent =>
      rw [allocLoop]
      split
      · exact ih
      · exact ⟨rfl, rfl⟩

theorem allocShared_counts {newNum blockSize : Int} {t : WriteTask} :
    (allocShared t env newNum blockSize).1.bufferedDataSize = t.bufferedDataSize ∧
      (allocShared t env newNum blockSize).1.dataOffset = t.dataOffset := by
  rw [allocShared]
  split
  · exact ⟨rfl, rfl⟩
  · split
    · exact ⟨rfl, rfl⟩
    · split
      · split <;> exact ⟨rfl, rfl⟩
      · exact ⟨rfl, rfl⟩

theorem allocBlocks_counts (t : WriteTask) (newBuffers blockSize : Int) (env : MmEnv) :
    (allocBlocks t newBuffers blockSize env).bufferedDataSize = t.bufferedDataSize ∧
      (allocBlocks t newBuffers blockSize env).dataOffset = t.dataOffset := by
  rw [allocBlocks]
  exact ⟨allocLoop_counts.1.trans allocShared_counts.1,
    allocLoop_counts.2.trans allocShared_counts.2⟩

/-- A new write thread has taken nothing. -/
theorem threadrwAlloc_counts {num blockSize : Int32} {audio : Bool} {t : WriteTask}
    (h : threadrwAlloc num blockSize audio env room = some t) :
    t.bufferedDataSize = 0 ∧ t.dataOffset = 0 := by
  rw [threadrwAlloc_eq h, WriteTask.defaulted]
  have hcounts := allocBlocks_counts (newTask (maxBufsOf num.toInt audio).toNat audio) num.toInt
    blockSize.toInt env
  split
  · exact hcounts
  · exact hcounts

theorem booked_init (h : esparserInit type hasHevcVdec old wp bufEnd env room = some s) :
    Booked s := by
  rw [esparserInit] at h
  split at h
  · cases h
  · rename_i htype
    rw [not_or, not_and, Bool.not_eq_false] at htype
    obtain ⟨hsub, hvdec⟩ := htype
    obtain ⟨task, htask, rfl⟩ := Option.map_eq_some_iff.mp h
    obtain ⟨hlevel, hoffset⟩ := threadrwAlloc_counts htask
    refine ⟨?_, ?_, ?_, fun c hc => absurd hc List.not_mem_nil⟩
    · cases type with
      | audio => exact .inl rfl
      | video => exact .inr (.inl rfl)
      | hevc => exact .inr (.inr ⟨hvdec rfl, rfl⟩)
      | subtitle => exact absurd rfl hsub
    · rw [levelOffset]
      dsimp only
      rw [hlevel]
      split <;> rfl
    · rw [dataOffset]
      dsimp only
      rw [hoffset]
      rfl

/-- On a stream with a write thread, all timestamps are checked in at the number of bytes accepted
from user space exactly when no byte was written directly before one of them. -/
theorem offsets_right_iff (ops : List EsOp)
    (h : esparserInit type hasHevcVdec old wp bufEnd env room = some s) :
    Always esStep OffsetsRight s ops ↔ Guarded esStep NoneDirect s ops :=
  always_iff_guarded_total (fun _ hb => hb.right) booked_esStep checkin_short (booked_init h)

/-- The audio buffer before `esparser_init`. -/
def noStream : EsStream := ⟨.audio, false, false, newTask 20 true, 7, 9, 0, 0, 0⟩

/-- An audio buffer of a thousand bytes whose write thread gets three blocks. -/
def audioRun : EsRun :=
  (esparserInit .audio false noStream 0 1000 ⟨false, false, fun _ => true, fun i => i < 3⟩ true).get
    (by decide +kernel)

/-- The user writes five bytes and the thread gives three of them to the parser, then the rest;
timestamps are checked in in between. -/
def threadedOps : List EsOp :=
  [.write 4096 ⟨[1, 2, 3, 4, 5], by decide⟩ fun _ => 0,
    .checkin false,
    .work ⟨300, 300, 0, 0, true, ⟨true, .done, 0, 2⟩⟩,
    .checkin true,
    .work ⟨300, 300, 0, 0, true, ⟨true, .done, 0, 0⟩⟩,
    .checkin false]

theorem offsets_right_threaded : Always esStep OffsetsRight audioRun threadedOps :=
  (offsets_right_iff threadedOps (Option.some_get _).symm).mpr (by decide +kernel)

/-- Nothing but a protected package of three bytes, written directly. -/
def directOps : List EsOp :=
  [.drmBegin 128 true ⟨0x80, 0, 3⟩, .drmTurn 0 false ⟨true, .done, 0, 0⟩, .checkin false]

/-- A timestamp behind a direct write is checked in at offset zero. -/
theorem offsets_not_right : ¬ ∀ (type : BufType) (hasHevcVdec : Bool) (old : EsStream)
    (wp bufEnd : Int) (env : MmEnv) (room : Bool) (s : EsRun) (ops : List EsOp),
    esparserInit type hasHevcVdec old wp bufEnd env room = some s →
      Always esStep OffsetsRight s ops := by
  intro hall
  have halways := hall .audio false noStream 0 1000 ⟨false, false, fun _ => true, fun i => i < 3⟩ true
    audioRun directOps (Option.some_get _).symm
  have hend : (run esStep audioRun directOps).map EsRun.checkins = some [⟨false, 0, 3⟩] := by
    decide +kernel
  obtain ⟨u, hu, hlist⟩ := Option.map_eq_some_iff.mp hend
  have hright := always_last halways hu ⟨false, 0, 3⟩ (by rw [hlist]; exact List.mem_cons_self)
  exact absurd hright (by decide)

end runs

end MediaModules.WriteThread
