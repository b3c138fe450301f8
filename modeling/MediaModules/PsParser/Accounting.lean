import MediaModules.Lib.Run
import MediaModules.PsParser.Parser

/-!
# The bytes stored for each stream

The parser counts the bytes it tells the hardware to store, and checks timestamps in at the counts.
The rest of a packet that is stored at the interrupt after a first access is not counted, and a header
longer than its packet makes the sizes negative. In runs without either the counts are right, and
with either of them they are not.
-/
namespace MediaModules.PsParser

open Lib.Words Lib.Run

section pops

variable {α β : Type} {bytes rest : List UInt8}

/-- A computation in two parts pops its bytes in two parts. -/
theorem bind_eq_some {x : Pop α} {f : α → Pop β} {r : β × List UInt8} :
    (x >>= f) bytes = some r ↔ ∃ a mid, x bytes = some (a, mid) ∧ f a mid = some r := by
  show (x bytes).bind (fun y => f y.1 y.2) = some r ↔ _
  rw [Option.bind_eq_some_iff]
  exact ⟨fun ⟨⟨a, mid⟩, h1, h2⟩ => ⟨a, mid, h1, h2⟩, fun ⟨a, mid, h1, h2⟩ => ⟨(a, mid), h1, h2⟩⟩

theorem pure_eq_some {a : α} {r : α × List UInt8} :
    (pure a : Pop α) bytes = some r ↔ (a, bytes) = r :=
  Option.some_inj

theorem pop_eq_some {b : UInt8} : pop bytes = some (b, rest) ↔ bytes = b :: rest := by
  cases bytes with
  | nil =>
    constructor
    · intro h
      cases h
    · intro h
      cases h
  | cons c bytes =>
    show some (c, bytes) = some (b, rest) ↔ _
    rw [Option.some_inj, Prod.mk.injEq, List.cons.injEq]

end pops

section headerSize

/-- The bytes of an MPEG-1 header behind its stuffing and its first byte. -/
def stampsSize (temp : UInt8) : Nat :=
  if temp >>> 4 = 2 then 4 else if temp >>> 4 = 3 then 9 else 0

def fieldsSize (temp : UInt8) (bytes : List UInt8) : Nat :=
  if temp >>> 6 = 1 then 2 + stampsSize (bytes[1]?.getD 0) else stampsSize temp

def mpeg1Size (temp : UInt8) : List UInt8 → Nat
  | [] => if temp = 0xff then 0 else fieldsSize temp []
  | b :: bytes => if temp = 0xff then 1 + mpeg1Size b bytes else fieldsSize temp (b :: bytes)

/-- The size of a packet's header, as the header itself gives it. -/
def headerSize : List UInt8 → Nat
  | [] => 0
  | temp :: bytes =>
    1 + if temp >>> 6 = 2 then 2 + (bytes[1]?.getD 0).toNat else mpeg1Size temp bytes

variable {packetLen : Int} {h : PesHeader} {temp : UInt8} {bytes rest : List UInt8}

theorem mpeg1Stamps_len (hs : mpeg1Stamps temp packetLen bytes = some (h, rest)) :
    h.packetLen = packetLen - stampsSize temp := by
  rw [mpeg1Stamps] at hs
  rw [stampsSize]
  split at hs
  · rename_i hpts
    obtain ⟨pts, mid, -, hpure⟩ := bind_eq_some.mp hs
    obtain ⟨rfl, -⟩ := Prod.mk.inj (pure_eq_some.mp hpure)
    rw [if_pos hpts]
    rfl
  · rename_i hpts
    rw [if_neg hpts]
    split at hs
    · rename_i hdts
      obtain ⟨pts, mid, -, hs⟩ := bind_eq_some.mp hs
      obtain ⟨first, mid, -, hs⟩ := bind_eq_some.mp hs
      obtain ⟨dts, mid, -, hpure⟩ := bind_eq_some.mp hs
      obtain ⟨rfl, -⟩ := Prod.mk.inj (pure_eq_some.mp hpure)
      rw [if_pos hdts]
      rfl
    · rename_i hdts
      obtain ⟨rfl, -⟩ := Prod.mk.inj (pure_eq_some.mp hs)
      rw [if_neg hdts]
      exact (Int.sub_zero _).symm

theorem mpeg1Fields_len (hs : mpeg1Fields temp packetLen bytes = some (h, rest)) :
    h.packetLen = packetLen - fieldsSize temp bytes := by
  rw [mpeg1Fields] at hs
  rw [fieldsSize]
  split at hs
  · rename_i hstd
    obtain ⟨b, mid, hpop, hrest⟩ := bind_eq_some.mp hs
    obtain ⟨c, mid', hpop', hstamps⟩ := bind_eq_some.mp hrest
    have hbytes : bytes = b :: c :: mid' := by
      rw [pop_eq_some.mp hpop, pop_eq_some.mp hpop']
    rw [if_pos hstd, mpeg1Stamps_len hstamps, hbytes]
    show packetLen - 2 - (stampsSize c : Int) = packetLen - ((2 + stampsSize c : Nat) : Int)
    omega
  · rename_i hstd
    rw [if_neg hstd, mpeg1Stamps_len hs]

theorem mpeg1Header_len (hs : mpeg1Header temp packetLen bytes = some (h, rest)) :
    h.packetLen = packetLen - mpeg1Size temp bytes := by
  induction bytes generalizing temp packetLen with
  | nil =>
    rw [mpeg1Header] at hs
    split at hs
    · cases hs
    · rename_i hff
      rw [mpeg1Fields_len hs, mpeg1Size, if_neg hff]
  | cons b bytes ih =>
    rw [mpeg1Header] at hs
    split at hs
    · rename_i hff
      rw [ih hs, mpeg1Size, if_pos hff]
      omega
    · rename_i hff
      rw [mpeg1Fields_len hs, mpeg1Size, if_neg hff]

/-- What the header leaves of the packet's length. -/
theorem pesHeader_len (hs : pesHeader packetLen bytes = some (h, rest)) :
    h.packetLen = packetLen - headerSize bytes := by
  rw [pesHeader] at hs
  obtain ⟨temp, mid, hpop, hbody⟩ := bind_eq_some.mp hs
  rw [pop_eq_some.mp hpop, headerSize]
  split at hbody
  · rename_i hmpeg2
    rw [mpeg2Header] at hbody
    obtain ⟨misc, mid1, hpop1, hlen⟩ := bind_eq_some.mp hbody
    obtain ⟨len, mid2, hpop2, hfields⟩ := bind_eq_some.mp hlen
    obtain ⟨fields, mid3, -, hpure⟩ := bind_eq_some.mp hfields
    obtain ⟨rfl, -⟩ := Prod.mk.inj (pure_eq_some.mp hpure)
    rw [if_pos hmpeg2, pop_eq_some.mp hpop1, pop_eq_some.mp hpop2]
    show packetLen - 1 - 2 - (len.toNat : Int) = packetLen - ((1 + (2 + len.toNat) : Nat) : Int)
    omega
  · rename_i hmpeg1
    rw [mpeg1Header_len hbody, if_neg hmpeg1]
    omega

end headerSize

section outcomes

/-- The bytes the hardware is told to store for each stream. -/
def Action.stored : Action → Es → Int
  | .sendVideo size, .video => size
  | .sendAudio size, .audio => size
  | _, _ => 0

/-- The size the hardware is given, to store or to discard. -/
def Action.size : Action → Option Int
  | .sendVideo size | .sendAudio size | .sendSubpic size | .discardSearch size
  | .discardOnly size => some size
  | .searchStartCode | .videoFlush => none

/-- The count of each stream. -/
def Parser.parsed (p : Parser) : Es → Int
  | .video => p.videoDataParsed
  | .audio => p.audioDataParsed

/-- The counts are words, and so is what is left of a packet. -/
structure Parser.InRange (p : Parser) : Prop where
  parsed : ∀ es, u32 (p.parsed es) = p.parsed es
  remaining : 0 ≤ p.packetRemaining ∧ p.packetRemaining < 4294967296

/-- What is stored is counted, and timestamps are checked in at the counts. -/
structure Counted (p : Parser) (o : Outcome) : Prop where
  parsed : ∀ es, o.parser.parsed es = u32 (p.parsed es + o.action.stored es)
  checkins : ∀ c ∈ o.checkins, c.offset = p.parsed c.es
  remaining : 0 ≤ o.parser.packetRemaining ∧ o.parser.packetRemaining < 4294967296

/-- A parser with the same counts. -/
structure SameCounts (p p' : Parser) : Prop where
  parsed : ∀ es, p'.parsed es = p.parsed es
  remaining : p'.packetRemaining = p.packetRemaining

variable {p p' : Parser} {h : PesHeader} {packetLen : Int} {checkins : List PtsCheckin}

theorem SameCounts.refl (p : Parser) : SameCounts p p := ⟨fun _ => rfl, rfl⟩

theorem SameCounts.trans {p'' : Parser} (h1 : SameCounts p p') (h2 : SameCounts p' p'') :
    SameCounts p p'' :=
  ⟨fun es => (h2.parsed es).trans (h1.parsed es), h2.remaining.trans h1.remaining⟩

theorem SameCounts.inRange (h : SameCounts p p') (hp : p.InRange) : p'.InRange :=
  ⟨fun es => by rw [h.parsed]; exact hp.parsed es, by rw [h.remaining]; exact hp.remaining⟩

theorem sameCounts_monitorFlush (pts : UInt32) : SameCounts p (monitorFlush p pts) := by
  rw [monitorFlush]
  dsimp only
  split <;> split <;> exact ⟨fun es => by cases es <;> rfl, rfl⟩

/-- Timestamps that are checked in at the counts, by a parser that keeps them. -/
structure Stamped (p : Parser) (r : List PtsCheckin × Parser) : Prop where
  same : SameCounts p r.2
  checkins : ∀ c ∈ r.1, c.offset = p.parsed c.es

theorem stamped_nil (h : SameCounts p p') : Stamped p ([], p') :=
  ⟨h, fun _ hc => absurd hc List.not_mem_nil⟩

theorem stamped_vpts (pts : UInt32) : Stamped p (ptsmgrVptsCheckin p pts) := by
  refine ⟨?_, fun c hc => ?_⟩
  · rw [ptsmgrVptsCheckin]
    dsimp only
    split <;> exact ⟨fun es => by cases es <;> rfl, rfl⟩
  · obtain rfl := List.mem_singleton.mp hc
    rfl

theorem stamped_apts (pts : UInt32) : Stamped p (ptsmgrAptsCheckin p pts) := by
  refine ⟨?_, fun c hc => ?_⟩
  · rw [ptsmgrAptsCheckin]
    refine SameCounts.trans ?_ (sameCounts_monitorFlush pts)
    split <;> exact ⟨fun es => by cases es <;> rfl, rfl⟩
  · obtain rfl := List.mem_singleton.mp hc
    rfl

theorem Stamped.of_same {r : List PtsCheckin × Parser} (hs : SameCounts p p')
    (hr : Stamped p' r) : Stamped p r :=
  ⟨hs.trans hr.same, fun c hc => (hr.checkins c hc).trans (hs.parsed c.es)⟩

theorem stamped_aptsCheckin : Stamped p (aptsCheckin p h) := by
  rw [aptsCheckin]
  split
  · exact stamped_apts h.pts
  · exact stamped_nil (SameCounts.refl p)

theorem stamped_vptsCheckin : Stamped p (vptsCheckin p h) := by
  have hflag : ∀ flag, SameCounts p { p with ptsEquDtsFlag := flag } := fun _ =>
    ⟨fun es => by cases es <;> rfl, rfl⟩
  rw [vptsCheckin]
  split
  · split
    · split
      · split
        · exact stamped_vpts h.pts
        · exact stamped_nil (SameCounts.refl p)
      · exact (stamped_vpts h.pts).of_same (hflag _)
    · exact stamped_nil (SameCounts.refl p)
  · split
    · exact stamped_vpts h.pts
    · exact stamped_vpts h.dts

/-- An outcome that stores nothing. -/
theorem counted_none (hp : p.InRange) (hr : Stamped p (checkins, p')) {action : Action}
    (haction : ∀ es, action.stored es = 0) : Counted p ⟨action, checkins, p'⟩ := by
  refine ⟨fun es => ?_, hr.checkins, ?_⟩
  · dsimp only
    rw [haction, Int.add_zero, hp.parsed]
    exact hr.same.parsed es
  · dsimp only
    rw [hr.same.remaining]
    exact hp.remaining

theorem counted_storeAudio (hp : p.InRange) (hr : Stamped p (checkins, p')) (size : Int) :
    Counted p (storeAudio p' checkins size) := by
  refine ⟨fun es => ?_, hr.checkins, ?_⟩
  · cases es with
    | video =>
      show p'.parsed .video = u32 (p.parsed .video + 0)
      rw [Int.add_zero, hp.parsed]
      exact hr.same.parsed .video
    | audio =>
      show u32 (p'.parsed .audio + size) = u32 (p.parsed .audio + size)
      rw [hr.same.parsed]
  · show 0 ≤ p'.packetRemaining ∧ p'.packetRemaining < 4294967296
    rw [hr.same.remaining]
    exact hp.remaining

theorem counted_audioPacket (hp : p.InRange) (packetLen : Int) :
    Counted p (audioPacket p h packetLen) := by
  have hr : Stamped p (aptsCheckin p h) := stamped_aptsCheckin
  rw [audioPacket]
  split
  · exact counted_storeAudio hp hr packetLen
  · exact counted_none hp hr fun es => by cases es <;> rfl

theorem counted_videoPacket (hp : p.InRange) : Counted p (videoPacket p h) := by
  rw [videoPacket]
  set p0 : Parser := if p.videoAutoFlushState = .monitor then
    { p with audioMonitorPts := p.audioLastPts } else p with hp0
  have h0 : SameCounts p p0 := by
    rw [hp0]
    split <;> exact ⟨fun es => by cases es <;> rfl, rfl⟩
  dsimp only
  set r := if (h.hasPts = true ∨ h.hasDts = true) ∧
    ¬ decide (h.pts = 0 ∧ h.dts = 0xffffffff) = true then vptsCheckin p0 h else ([], p0) with hr
  have hstamped : Stamped p r := by
    rw [hr]
    split
    · exact stamped_vptsCheckin.of_same h0
    · exact stamped_nil h0
  split
  · refine ⟨fun es => ?_, hstamped.checkins, ?_⟩
    · cases es with
      | video =>
        show u32 (r.2.parsed .video + h.packetLen) = u32 (p.parsed .video + h.packetLen)
        rw [hstamped.same.parsed]
      | audio =>
        show r.2.parsed .audio = u32 (p.parsed .audio + 0)
        rw [Int.add_zero, hp.parsed]
        exact hstamped.same.parsed .audio
    · show 0 ≤ r.2.packetRemaining ∧ r.2.packetRemaining < 4294967296
      rw [hstamped.same.remaining]
      exact hp.remaining
  · exact counted_none hp hstamped fun es => by cases es <;> rfl

theorem counted_firstAccessDone (hp : p.InRange) (hr : Stamped p (checkins, p')) :
    Counted p (firstAccessDone p' checkins packetLen) := by
  have hdone : Stamped p (checkins, { p' with audioFirstAccess := .done }) :=
    ⟨hr.same.trans ⟨fun es => by cases es <;> rfl, rfl⟩, hr.checkins⟩
  rw [firstAccessDone]
  split
  · exact counted_none hp hdone fun es => by cases es <;> rfl
  · exact counted_storeAudio hp hdone packetLen

theorem counted_firstAccessDiscard (hp : p.InRange) (hr : Stamped p (checkins, p')) (size : Int) :
    Counted p (firstAccessDiscard p' checkins packetLen size) := by
  refine ⟨fun es => ?_, hr.checkins, ?_⟩
  · show p'.parsed es = u32 (p.parsed es + (Action.discardOnly size).stored es)
    have hzero : (Action.discardOnly size).stored es = 0 := by cases es <;> rfl
    rw [hzero, Int.add_zero, hp.parsed]
    exact hr.same.parsed es
  · show 0 ≤ u32 (packetLen - size) ∧ u32 (packetLen - size) < 4294967296
    exact ⟨Int.emod_nonneg _ (by decide), Int.emod_lt_of_pos _ (by decide)⟩

end outcomes

section fits

variable (p : Parser)

/-- The stream with this id is the LPCM audio that is played. -/
def IsLpcm (id : UInt8) : Prop := id &&& 0xf8 = 0xa0 ∧ id = p.audioId

instance (id : UInt8) : Decidable (IsLpcm p id) := inferInstanceAs (Decidable (_ ∧ _))

/-- The bytes of a private packet in front of its payload: the stream id, and what an audio stream has
behind it. -/
def subSize (id : UInt8) : Int :=
  if IsLpcm p id then if p.audioFirstAccess = .arm then 4 else 7
  else if (id &&& 0xf8 = 0x80 ∨ id &&& 0xf8 = 0x88) ∧ id = p.audioId then 4
  else 1

/-- The bytes the first access of an LPCM stream discards, as its pointer gives them. -/
def firstDiscard (id : UInt8) (sub : List UInt8) : Int :=
  if IsLpcm p id ∧ p.audioFirstAccess = .arm then lpcmDiscard (sub[1]?.getD 0) (sub[2]?.getD 0) else 0

/-- A private packet of `packetLen` bytes, with `left` of them from the stream id on, has its headers
inside, and a first access points inside too. -/
def SubFits (packetLen left : Int) (id : UInt8) (sub : List UInt8) : Prop :=
  if firstDiscard p id sub ≠ 0 then
    0 ≤ firstDiscard p id sub ∧ firstDiscard p id sub ≤ packetLen
  else subSize p id ≤ left

instance (packetLen left : Int) (id : UInt8) (sub : List UInt8) :
    Decidable (SubFits p packetLen left id sub) := by
  unfold SubFits
  infer_instance

/-- The headers of a private packet are no longer than the packet. -/
def PrivateFits (packetLen : Int) (body : List UInt8) : Prop :=
  headerSize body = packetLen ∨
    match pesHeader packetLen body with
    | some (_, id :: sub) => SubFits p packetLen (packetLen - headerSize body) id sub
    | _ => True

instance (packetLen : Int) (body : List UInt8) : Decidable (PrivateFits p packetLen body) := by
  unfold PrivateFits
  split <;> infer_instance

/-- The headers of a packet are no longer than the packet, when the packet's stream is played. -/
def PacketFits (startCode packetLen : Int) (body : List UInt8) : Prop :=
  if startCode = p.videoId.toNat then headerSize body ≤ packetLen
  else if startCode = p.audioId.toNat then packetLen ≤ 0x1000 → headerSize body ≤ packetLen
  else if startCode = 0xbd then PrivateFits p packetLen body
  else True

instance (startCode packetLen : Int) (body : List UInt8) :
    Decidable (PacketFits p startCode packetLen body) := by
  unfold PacketFits
  infer_instance

end fits

section sizes

/-- The size the hardware is given lies in the packet. -/
def Sized (packetLen : Int) (o : Outcome) : Prop :=
  ∀ n, o.action.size = some n → 0 ≤ n ∧ n ≤ packetLen

variable {p : Parser} {h : PesHeader} {packetLen n left : Int} {checkins : List PtsCheckin}
  {o : Outcome} {bytes rest : List UInt8}

theorem sized_some (ho : o.action.size = some n) : Sized packetLen o ↔ 0 ≤ n ∧ n ≤ packetLen := by
  rw [Sized, ho]
  exact ⟨fun hs => hs n rfl, fun hn m hm => Option.some.inj hm ▸ hn⟩

theorem sized_none (ho : o.action.size = none) : Sized packetLen o := by
  intro n hn
  rw [ho] at hn
  cases hn

/-- Both ways a packet can go have its size. -/
theorem size_ite {c : Prop} [Decidable c] {o' : Outcome} (ho : o.action.size = some n)
    (ho' : o'.action.size = some n) : (if c then o else o').action.size = some n := by
  split
  · exact ho
  · exact ho'

theorem audioPacket_size : (audioPacket p h n).action.size = some n := size_ite rfl rfl

theorem videoPacket_size : (videoPacket p h).action.size = some h.packetLen := size_ite rfl rfl

theorem sized_firstAccessDone (hlen : 0 ≤ packetLen) :
    Sized packetLen (firstAccessDone p checkins n) ↔ 0 ≤ n ∧ n ≤ packetLen := by
  rw [firstAccessDone]
  split
  · rename_i hzero
    rw [hzero]
    exact iff_of_true (sized_none rfl) ⟨le_rfl, hlen⟩
  · exact sized_some rfl

theorem sized_subPacket (id : UInt8) (hlen : 0 ≤ packetLen) :
    Sized packetLen (subPacket p h id n) ↔ 0 ≤ n ∧ n ≤ packetLen := by
  rw [subPacket]
  dsimp only
  split
  · split
    · rename_i hzero
      rw [hzero]
      exact iff_of_true (sized_none rfl) ⟨le_rfl, hlen⟩
    · split
      · exact sized_some rfl
      · exact sized_some rfl
  · exact sized_some rfl

/-- The three bytes an audio stream pops behind its id. -/
theorem pop_three {α : Type} {f : UInt8 → UInt8 → UInt8 → Pop α} {r : α × List UInt8}
    (hs : (do let a ← pop; let b ← pop; let c ← pop; f a b c : Pop α) bytes = some r) :
    ∃ a b c tail, bytes = a :: b :: c :: tail ∧ f a b c tail = some r := by
  obtain ⟨a, mid, hpop, hs1⟩ := bind_eq_some.mp hs
  obtain ⟨b, mid', hpop', hs2⟩ := bind_eq_some.mp hs1
  obtain ⟨c, tail, hpop'', hs3⟩ := bind_eq_some.mp hs2
  refine ⟨a, b, c, tail, ?_, hs3⟩
  rw [pop_eq_some.mp hpop, pop_eq_some.mp hpop', pop_eq_some.mp hpop'']

theorem lpcmPacket_spec (hp : p.InRange) (hlen : 0 ≤ packetLen) (hleft : left ≤ packetLen)
    (hs : lpcmPacket p h (left - 1) bytes = some (o, rest)) :
    Counted p o ∧ (Sized packetLen o ↔
      if p.audioFirstAccess = .arm then
        if lpcmDiscard (bytes[1]?.getD 0) (bytes[2]?.getD 0) ≠ 0 then
          0 ≤ lpcmDiscard (bytes[1]?.getD 0) (bytes[2]?.getD 0) ∧
            lpcmDiscard (bytes[1]?.getD 0) (bytes[2]?.getD 0) ≤ packetLen
        else 4 ≤ left
      else 7 ≤ left) := by
  obtain ⟨a, hi, lo, tail, rfl, hrest⟩ := pop_three hs
  show Counted p o ∧ (Sized packetLen o ↔ if p.audioFirstAccess = .arm then
    if lpcmDiscard hi lo ≠ 0 then 0 ≤ lpcmDiscard hi lo ∧ lpcmDiscard hi lo ≤ packetLen
    else 4 ≤ left else 7 ≤ left)
  have hnone : Stamped p ([], p) := stamped_nil (SameCounts.refl p)
  dsimp only at hrest
  split at hrest
  · rename_i harm
    rw [if_pos harm]
    split at hrest
    · rename_i hne
      obtain ⟨rfl, -⟩ := Prod.mk.inj (pure_eq_some.mp hrest)
      rw [if_pos hne]
      exact ⟨counted_firstAccessDiscard hp hnone _, sized_some rfl⟩
    · rename_i hzero
      obtain ⟨rfl, -⟩ := Prod.mk.inj (pure_eq_some.mp hrest)
      rw [if_neg hzero]
      refine ⟨counted_firstAccessDone hp hnone, (sized_firstAccessDone hlen).trans ?_⟩
      omega
  · rename_i harm
    obtain ⟨-, mid, -, hpure⟩ := bind_eq_some.mp hrest
    obtain ⟨rfl, -⟩ := Prod.mk.inj (pure_eq_some.mp hpure)
    rw [if_neg harm]
    refine ⟨counted_audioPacket hp _, (sized_some audioPacket_size).trans ?_⟩
    omega

theorem ac3Packet_spec (hp : p.InRange) (hlen : 0 ≤ packetLen) (hleft : left ≤ packetLen)
    (hs : ac3Packet p h (left - 1) bytes = some (o, rest)) :
    Counted p o ∧ (Sized packetLen o ↔ 4 ≤ left) := by
  obtain ⟨a, hi, lo, tail, rfl, hrest⟩ := pop_three hs
  dsimp only at hrest
  split at hrest
  · split at hrest
    · rename_i hdiscard
      obtain ⟨rfl, -⟩ := Prod.mk.inj (pure_eq_some.mp hrest)
      refine ⟨counted_firstAccessDiscard hp stamped_aptsCheckin _, (sized_some rfl).trans ?_⟩
      omega
    · obtain ⟨rfl, -⟩ := Prod.mk.inj (pure_eq_some.mp hrest)
      refine ⟨counted_firstAccessDone hp stamped_aptsCheckin,
        (sized_firstAccessDone hlen).trans ?_⟩
      omega
  · obtain ⟨rfl, -⟩ := Prod.mk.inj (pure_eq_some.mp hrest)
    refine ⟨counted_audioPacket hp _, (sized_some audioPacket_size).trans ?_⟩
    omega

theorem dtsPacket_spec (hp : p.InRange) (hleft : left ≤ packetLen)
    (hs : dtsPacket p h (left - 1) bytes = some (o, rest)) :
    Counted p o ∧ (Sized packetLen o ↔ 4 ≤ left) := by
  obtain ⟨-, mid, -, hpure⟩ := bind_eq_some.mp hs
  obtain ⟨rfl, -⟩ := Prod.mk.inj (pure_eq_some.mp hpure)
  set p' : Parser := if p.audioFirstAccess = .arm then { p with audioFirstAccess := .done } else p
    with hp'
  have hsame : SameCounts p p' := by
    rw [hp']
    split <;> exact ⟨fun es => by cases es <;> rfl, rfl⟩
  have hcounted := counted_audioPacket (p := p') (h := h) (hsame.inRange hp) (left - 1 - 3)
  refine ⟨⟨fun es => ?_, fun c hc => ?_, hcounted.remaining⟩,
    (sized_some audioPacket_size).trans (by omega)⟩
  · rw [hcounted.parsed, hsame.parsed]
  · rw [hcounted.checkins c hc, hsame.parsed]

theorem counted_subPacket (hp : p.InRange) (id : UInt8) (n : Int) :
    Counted p (subPacket p h id n) := by
  have hsame : ∀ (idMax : UInt8) (pts found : Bool), Stamped p
      ([], { p with subIdMax := idMax, subGotFirstPts := pts, subBlockFound := found }) :=
    fun _ _ _ => stamped_nil ⟨fun es => by cases es <;> rfl, rfl⟩
  rw [subPacket]
  dsimp only
  split
  · split
    · exact counted_none hp (hsame _ _ _) fun es => by cases es <;> rfl
    · split
      · exact counted_none hp (hsame _ _ _) fun es => by cases es <;> rfl
      · exact counted_none hp (hsame _ _ _) fun es => by cases es <;> rfl
  · exact counted_none hp (hsame _ _ _) fun es => by cases es <;> rfl

/-- What a private packet comes to: its size lies in the packet exactly when its headers do. -/
theorem privatePacket_spec (hp : p.InRange) (hlen : 0 ≤ packetLen) (hleft : h.packetLen ≤ packetLen)
    (hs : privatePacket p h bytes = some (o, rest)) :
    ∃ id sub, bytes = id :: sub ∧ Counted p o ∧
      (Sized packetLen o ↔ SubFits p packetLen h.packetLen id sub) := by
  obtain ⟨id, sub, hpop, hrest⟩ := bind_eq_some.mp hs
  refine ⟨id, sub, pop_eq_some.mp hpop, ?_⟩
  split at hrest
  · rename_i hlpcm
    obtain ⟨hcounted, hsized⟩ := lpcmPacket_spec hp hlen hleft hrest
    refine ⟨hcounted, hsized.trans ?_⟩
    rw [SubFits]
    by_cases harm : p.audioFirstAccess = .arm
    · have hdiscard : firstDiscard p id sub =
          lpcmDiscard (sub[1]?.getD 0) (sub[2]?.getD 0) := if_pos ⟨hlpcm, harm⟩
      have hsize : subSize p id = 4 := by
        rw [subSize, if_pos (show IsLpcm p id from hlpcm), if_pos harm]
      rw [if_pos harm, hdiscard, hsize]
    · have hdiscard : firstDiscard p id sub = 0 := if_neg fun hb => harm hb.2
      have hsize : subSize p id = 7 := by
        rw [subSize, if_pos (show IsLpcm p id from hlpcm), if_neg harm]
      rw [if_neg harm, hdiscard, hsize, if_neg (not_not.mpr rfl)]
  · rename_i hlpcm
    have hsub : SubFits p packetLen h.packetLen id sub ↔ subSize p id ≤ h.packetLen := by
      have hdiscard : firstDiscard p id sub = 0 := if_neg fun hb => hlpcm hb.1
      rw [SubFits, hdiscard, if_neg (not_not.mpr rfl)]
    have hsubSize : subSize p id =
        if (id &&& 0xf8 = 0x80 ∨ id &&& 0xf8 = 0x88) ∧ id = p.audioId then 4 else 1 := by
      rw [subSize, if_neg (show ¬ IsLpcm p id from hlpcm)]
    rw [hsub, hsubSize]
    split at hrest
    · rename_i hac3
      rw [if_pos ⟨.inl hac3.1, hac3.2⟩]
      exact ac3Packet_spec hp hlen hleft hrest
    · rename_i hac3
      split at hrest
      · rename_i hdts
        rw [if_pos ⟨.inr hdts.1, hdts.2⟩]
        exact dtsPacket_spec hp hleft hrest
      · rename_i hdts
        have hneither : ¬ ((id &&& 0xf8 = 0x80 ∨ id &&& 0xf8 = 0x88) ∧ id = p.audioId) := by
          rintro ⟨hkind | hkind, hid⟩
          · exact hac3 ⟨hkind, hid⟩
          · exact hdts ⟨hkind, hid⟩
        rw [if_neg hneither]
        split at hrest
        · obtain ⟨rfl, -⟩ := Prod.mk.inj (pure_eq_some.mp hrest)
          refine ⟨counted_subPacket hp id _, (sized_subPacket id hlen).trans ?_⟩
          omega
        · obtain ⟨rfl, -⟩ := Prod.mk.inj (pure_eq_some.mp hrest)
          refine ⟨counted_none hp (stamped_nil (SameCounts.refl p)) fun es => by cases es <;> rfl,
            (sized_some rfl).trans ?_⟩
          omega

/-- What a packet comes to, by the kind of its stream. -/
theorem parserProcess_spec {type : PacketType} (hp : p.InRange) (hlen : 0 ≤ packetLen)
    (hs : parserProcess p type packetLen bytes = some (o, rest)) :
    Counted p o ∧ (Sized packetLen o ↔
      if type = .privateStream then PrivateFits p packetLen bytes else headerSize bytes ≤ packetLen) := by
  obtain ⟨h, mid, hheader, hrest⟩ := bind_eq_some.mp hs
  have hsize := pesHeader_len hheader
  rw [processPacket] at hrest
  split at hrest
  · rename_i hzero
    obtain ⟨rfl, -⟩ := Prod.mk.inj (pure_eq_some.mp hrest)
    refine ⟨counted_none hp (stamped_nil (SameCounts.refl p)) fun es => by cases es <;> rfl,
      iff_of_true (sized_none rfl) ?_⟩
    have heq : (headerSize bytes : Int) = packetLen := by omega
    split
    · exact .inl heq
    · exact heq.le
  · rename_i hne
    cases type with
    | video =>
      obtain ⟨rfl, -⟩ := Prod.mk.inj (pure_eq_some.mp hrest)
      rw [if_neg (by decide)]
      refine ⟨counted_videoPacket hp, (sized_some videoPacket_size).trans ?_⟩
      omega
    | audio =>
      obtain ⟨rfl, -⟩ := Prod.mk.inj (pure_eq_some.mp hrest)
      rw [if_neg (by decide)]
      refine ⟨counted_audioPacket hp _, (sized_some audioPacket_size).trans ?_⟩
      omega
    | privateStream =>
      obtain ⟨id, sub, rfl, hcounted, hsized⟩ := privatePacket_spec hp hlen (by omega) hrest
      rw [if_pos rfl, PrivateFits, hheader]
      refine ⟨hcounted, hsized.trans ?_⟩
      dsimp only
      rw [← hsize]
      exact ⟨.inr, fun hfits => hfits.resolve_left (by omega)⟩

/-- What a packet that was found comes to: its size lies in the packet exactly when its headers
do. -/
theorem packetFound_spec {startCode : Int} (hp : p.InRange)
    (hs : packetFound p startCode bytes = some (o, rest)) :
    ∃ hi lo body, bytes = hi :: lo :: body ∧ Counted p o ∧
      (Sized (256 * hi.toNat + lo.toNat) o ↔
        PacketFits p startCode (256 * hi.toNat + lo.toNat) body) := by
  obtain ⟨hi, mid, hpop, hs1⟩ := bind_eq_some.mp hs
  obtain ⟨lo, body, hpop', hrest⟩ := bind_eq_some.mp hs1
  refine ⟨hi, lo, body, by rw [pop_eq_some.mp hpop, pop_eq_some.mp hpop'], ?_⟩
  have hlen : (0 : Int) ≤ 256 * hi.toNat + lo.toNat := by omega
  set packetLen : Int := 256 * hi.toNat + lo.toNat with hpacket
  have hnone : ∀ action : Action, (∀ es, action.stored es = 0) →
      Counted p ⟨action, [], p⟩ := fun _ => counted_none hp (stamped_nil (SameCounts.refl p))
  have hdiscard : Counted p ⟨.discardSearch packetLen, [], p⟩ ∧
      (Sized packetLen ⟨.discardSearch packetLen, [], p⟩ ↔ True) :=
    ⟨hnone _ fun es => by cases es <;> rfl,
      (sized_some rfl).trans (iff_true_intro ⟨hlen, le_rfl⟩)⟩
  have hsearch : Counted p ⟨.searchStartCode, [], p⟩ ∧
      (Sized packetLen ⟨.searchStartCode, [], p⟩ ↔ True) :=
    ⟨hnone _ fun es => by cases es <;> rfl, iff_true_intro (sized_none rfl)⟩
  rw [PacketFits]
  split at hrest
  · rename_i hvideo
    rw [if_pos hvideo]
    exact parserProcess_spec hp hlen hrest
  · rename_i hvideo
    rw [if_neg hvideo]
    split at hrest
    · rename_i haudio
      rw [if_pos haudio]
      split at hrest
      · rename_i hlong
        obtain ⟨rfl, -⟩ := Prod.mk.inj (pure_eq_some.mp hrest)
        exact ⟨hsearch.1, hsearch.2.trans
          (iff_of_true trivial fun hshort => absurd hshort (by omega))⟩
      · rename_i hlong
        obtain ⟨hcounted, hsized⟩ := parserProcess_spec hp hlen hrest
        refine ⟨hcounted, hsized.trans ?_⟩
        rw [if_neg (by decide)]
        exact ⟨fun hfits _ => hfits, fun hfits => hfits (by omega)⟩
    · rename_i haudio
      rw [if_neg haudio]
      split at hrest
      · rename_i hbb
        obtain ⟨rfl, -⟩ := Prod.mk.inj (pure_eq_some.mp hrest)
        rw [if_neg (by omega)]
        exact hdiscard
      · split at hrest
        · rename_i hbd
          rw [if_pos hbd]
          exact parserProcess_spec hp hlen hrest
        · rename_i hbd
          rw [if_neg hbd]
          split at hrest
          · obtain ⟨rfl, -⟩ := Prod.mk.inj (pure_eq_some.mp hrest)
            exact hdiscard
          · split at hrest
            · obtain ⟨rfl, -⟩ := Prod.mk.inj (pure_eq_some.mp hrest)
              exact hsearch
            · split at hrest
              · obtain ⟨rfl, -⟩ := Prod.mk.inj (pure_eq_some.mp hrest)
                exact hdiscard
              · obtain ⟨rfl, -⟩ := Prod.mk.inj (pure_eq_some.mp hrest)
                exact hsearch

theorem packHeader_spec (hp : p.InRange) (hs : packHeader p bytes = some (o, rest)) :
    Counted p o ∧ o.action.size = none := by
  have hflush : ∀ state : AutoFlush, Stamped p ([], { p with videoAutoFlushState := state }) :=
    fun _ => stamped_nil ⟨fun es => by cases es <;> rfl, rfl⟩
  obtain ⟨-, mid, -, hend⟩ := bind_eq_some.mp hs
  obtain ⟨rfl, -⟩ := Prod.mk.inj (pure_eq_some.mp hend)
  rw [flushDue]
  split
  · exact ⟨counted_none hp (hflush .done) fun es => by cases es <;> rfl, rfl⟩
  · exact ⟨counted_none hp (hflush _) fun es => by cases es <;> rfl, rfl⟩

end sizes

section runs

/-- An interrupt: the start code that was found, and the bytes that are there to be popped. -/
structure Call where
  startCode : Int
  bytes : List UInt8

/-- A parser with the bytes the hardware was told to store, the length of the last packet, the sizes
with the lengths of their packets, and the offsets of the timestamps with the bytes stored until
then. -/
structure PsRun where
  parser : Parser
  stored : Es → Int
  packet : Int
  sizes : List (Int × Int)
  stamps : List (Int × Int)

/-- The length of the packet that was found. -/
def packetLength : List UInt8 → Int
  | hi :: lo :: _ => 256 * hi.toNat + lo.toNat
  | _ => 0

/-- The rest of a packet belongs to the packet before. -/
def PsRun.packetOf (s : PsRun) (c : Call) : Int :=
  if s.parser.audioFirstAccess = .poping then s.packet else packetLength c.bytes

def PsRun.after (s : PsRun) (c : Call) (o : Outcome) : PsRun :=
  { parser := o.parser
    stored := fun es => s.stored es + o.action.stored es
    packet := s.packetOf c
    sizes := s.sizes ++ o.action.size.toList.map fun n => (n, s.packetOf c)
    stamps := s.stamps ++ o.checkins.map fun k => (k.offset, s.stored k.es) }

def psStep (s : PsRun) (c : Call) : Option PsRun :=
  (onStartCodeFound s.parser c.startCode c.bytes).map fun r => s.after c r.1

/-- The counts are the bytes stored, every size lies in its packet, and every timestamp is checked in
at the offset of the next byte that is stored. -/
structure Accounted (s : PsRun) : Prop where
  parsed : ∀ es, s.parser.parsed es = u32 (s.stored es)
  sizes : ∀ e ∈ s.sizes, 0 ≤ e.1 ∧ e.1 ≤ e.2
  stamps : ∀ e ∈ s.stamps, e.1 = u32 e.2

/-- No rest of a packet is stored behind a first access, and the headers of a packet are no longer
than the packet. -/
def CallFits (s : PsRun) (c : Call) : Prop :=
  if s.parser.audioFirstAccess = .poping then s.parser.packetRemaining = 0
  else c.startCode ≠ 0xba →
    PacketFits s.parser c.startCode (packetLength c.bytes) (c.bytes.drop 2)

instance (s : PsRun) (c : Call) : Decidable (CallFits s c) := by
  unfold CallFits
  infer_instance

/-- The books, with what is left of a packet in the range of a word. -/
structure Kept (s : PsRun) : Prop extends Accounted s where
  remaining : 0 ≤ s.parser.packetRemaining ∧ s.parser.packetRemaining < 4294967296

variable {s s' : PsRun} {c : Call} {o : Outcome}

theorem Kept.inRange (h : Kept s) : s.parser.InRange := by
  refine ⟨fun es => ?_, h.remaining⟩
  rw [h.parsed]
  exact u32_of_range (Int.emod_nonneg _ (by decide)) (Int.emod_lt_of_pos _ (by decide))

theorem kept_after (h : Kept s) (hcounted : Counted s.parser o) (hsized : Sized (s.packetOf c) o) :
    Kept (s.after c o) := by
  refine ⟨⟨fun es => ?_, fun e he => ?_, fun e he => ?_⟩, hcounted.remaining⟩
  · have hsum := hcounted.parsed es
    have hold := h.parsed es
    show o.parser.parsed es = u32 (s.stored es + o.action.stored es)
    rw [hsum, hold]
    simp only [u32]
    omega
  · rcases List.mem_append.mp he with hold | hnew
    · exact h.sizes e hold
    · obtain ⟨n, hn, rfl⟩ := List.mem_map.mp hnew
      exact hsized n (Option.mem_toList.mp hn)
  · rcases List.mem_append.mp he with hold | hnew
    · exact h.stamps e hold
    · obtain ⟨k, hk, rfl⟩ := List.mem_map.mp hnew
      exact (hcounted.checkins k hk).trans (h.parsed k.es)

theorem not_accounted_after (hsized : ¬ Sized (s.packetOf c) o) : ¬ Accounted (s.after c o) := by
  intro haccounted
  apply hsized
  intro n hn
  refine haccounted.sizes (n, s.packetOf c) (List.mem_append_right _ ?_)
  exact List.mem_map.mpr ⟨n, Option.mem_toList.mpr hn, rfl⟩

/-- The flag for the subtitles does not matter to the counts. -/
theorem sameCounts_subBlock (p : Parser) : SameCounts p { p with subBlockFound := false } :=
  ⟨fun es => by cases es <;> rfl, rfl⟩

theorem Counted.of_same {p p' : Parser} (hsame : SameCounts p p') (h : Counted p' o) :
    Counted p o :=
  ⟨fun es => by rw [h.parsed, hsame.parsed], fun k hk => by rw [h.checkins k hk, hsame.parsed],
    h.remaining⟩

/-- An interrupt that does not follow a first access: it counts what it stores, and its size lies in
the packet exactly when the headers do. -/
theorem found_spec (h : Kept s) (hnot : s.parser.audioFirstAccess ≠ .poping)
    (hs : psStep s c = some s') :
    ∃ o, s' = s.after c o ∧ Counted s.parser o ∧ (Sized (s.packetOf c) o ↔ CallFits s c) := by
  obtain ⟨⟨o, rest⟩, hfound, rfl⟩ := Option.map_eq_some_iff.mp hs
  refine ⟨o, rfl, ?_⟩
  have hsame := sameCounts_subBlock s.parser
  have hrange := hsame.inRange h.inRange
  rw [onStartCodeFound] at hfound
  dsimp only at hfound
  rw [if_neg hnot] at hfound
  rw [PsRun.packetOf, if_neg hnot, CallFits, if_neg hnot]
  split at hfound
  · rename_i hpack
    obtain ⟨hcounted, hnone⟩ := packHeader_spec hrange hfound
    exact ⟨hcounted.of_same hsame, iff_of_true (sized_none hnone) fun hne => absurd hpack hne⟩
  · rename_i hpack
    obtain ⟨hi, lo, body, hbytes, hcounted, hsized⟩ := packetFound_spec hrange hfound
    rw [hbytes]
    exact ⟨hcounted.of_same hsame, hsized.trans ⟨fun hfits _ => hfits, fun hfits => hfits hpack⟩⟩

/-- The interrupt behind a first access stores what is left of the packet, and counts nothing. -/
theorem rest_spec (hpoping : s.parser.audioFirstAccess = .poping) (hs : psStep s c = some s') :
    ∃ o, s' = s.after c o ∧ (∀ es, o.parser.parsed es = s.parser.parsed es) ∧
      o.parser.packetRemaining = s.parser.packetRemaining ∧ o.checkins = [] ∧
      o.action = if s.parser.packetRemaining ≠ 0 then .sendAudio s.parser.packetRemaining
        else .searchStartCode := by
  obtain ⟨⟨o, rest⟩, hfound, rfl⟩ := Option.map_eq_some_iff.mp hs
  refine ⟨o, rfl, ?_⟩
  rw [onStartCodeFound] at hfound
  dsimp only at hfound
  rw [if_pos hpoping] at hfound
  split at hfound
  · rename_i hne
    obtain ⟨rfl, -⟩ := Prod.mk.inj (pure_eq_some.mp hfound)
    exact ⟨fun es => by cases es <;> rfl, rfl, rfl, (if_pos hne).symm⟩
  · rename_i hzero
    obtain ⟨rfl, -⟩ := Prod.mk.inj (pure_eq_some.mp hfound)
    exact ⟨fun es => by cases es <;> rfl, rfl, rfl, (if_neg hzero).symm⟩

theorem kept_psStep (s : PsRun) (c : Call) (s' : PsRun) (h : Kept s) (hfits : CallFits s c)
    (hs : psStep s c = some s') : Kept s' := by
  by_cases hpoping : s.parser.audioFirstAccess = .poping
  · obtain ⟨o, rfl, hparsed, hremaining, hnone, haction⟩ := rest_spec hpoping hs
    rw [CallFits, if_pos hpoping] at hfits
    rw [if_neg (not_not.mpr hfits)] at haction
    refine kept_after h ⟨fun es => ?_, fun k hk => ?_, ?_⟩ (sized_none (by rw [haction]; rfl))
    · have hzero : o.action.stored es = 0 := by
        rw [haction]
        cases es <;> rfl
      rw [hparsed, hzero, Int.add_zero, h.inRange.parsed]
    · rw [hnone] at hk
      exact absurd hk List.not_mem_nil
    · rw [hremaining]
      exact h.remaining
  · obtain ⟨o, rfl, hcounted, hsized⟩ := found_spec h hpoping hs
    exact kept_after h hcounted (hsized.mpr hfits)

theorem broken_psStep (s : PsRun) (c : Call) (s' : PsRun) (h : Kept s) (hfits : ¬ CallFits s c)
    (hs : psStep s c = some s') : ¬ Accounted s' := by
  by_cases hpoping : s.parser.audioFirstAccess = .poping
  · obtain ⟨o, rfl, hparsed, -, -, haction⟩ := rest_spec hpoping hs
    rw [CallFits, if_pos hpoping] at hfits
    rw [if_pos hfits] at haction
    intro haccounted
    have haudio := haccounted.parsed .audio
    have hstored : o.action.stored .audio = s.parser.packetRemaining := by
      rw [haction]
      rfl
    have hnow : o.parser.parsed .audio = u32 (s.stored .audio + o.action.stored .audio) := haudio
    rw [hparsed, hstored, h.parsed] at hnow
    have hrange := h.remaining
    simp only [u32] at hnow
    omega
  · obtain ⟨o, rfl, hcounted, hsized⟩ := found_spec h hpoping hs
    exact not_accounted_after fun hin => hfits (hsized.mp hin)

/-- The parser after its `init`, with what the session before left in the statics that are not
set. -/
def psStart (old : Parser) (remaining : UInt32) (vid aid sid : UInt8) : PsRun :=
  { parser := psparserInit { old with packetRemaining := remaining.toNat } vid aid sid
    stored := fun _ => 0, packet := 0, sizes := [], stamps := [] }

theorem kept_psStart (old : Parser) (remaining : UInt32) (vid aid sid : UInt8) :
    Kept (psStart old remaining vid aid sid) := by
  refine ⟨⟨fun es => by cases es <;> rfl, fun e he => absurd he List.not_mem_nil,
    fun e he => absurd he List.not_mem_nil⟩, Int.natCast_nonneg _, ?_⟩
  have hlt := remaining.toNat_lt
  show (remaining.toNat : Int) < 4294967296
  omega

/-- Along every run from the `init` of the parser, the bytes stored are counted, the sizes lie in
their packets and the timestamps are checked in where they belong, exactly when no rest of a packet
is stored behind a first access and all headers are no longer than their packets. -/
theorem accounted_iff (old : Parser) (remaining : UInt32) (vid aid sid : UInt8) {t : PsRun}
    {calls : List Call} (hr : run psStep (psStart old remaining vid aid sid) calls = some t) :
    Always psStep Accounted (psStart old remaining vid aid sid) calls ↔
      Guarded psStep CallFits (psStart old remaining vid aid sid) calls :=
  always_iff_guarded (D := fun _ => True) (fun _ h => h.toAccounted)
    (fun s c s' h _ => kept_psStep s c s' h) (fun s c s' h _ => broken_psStep s c s' h)
    (kept_psStart old remaining vid aid sid) (fun _ _ => trivial) hr

/-- The statics as they are when the module is loaded. -/
def loaded : Parser :=
  { audioId := 0, videoId := 0, subId := 0, subIdMax := 0, audioFirstAccess := .arm
    packetRemaining := 0, videoDataParsed := 0, audioDataParsed := 0, ptsEquDtsFlag := false
    firstApts := 0, firstVpts := 0, audioGotFirstPts := false, videoGotFirstDts := false
    subGotFirstPts := false, subBlockFound := false, videoAutoFlushState := .idle
    audioLastPts := 0, audioMonitorPts := 0 }

/-- A video packet with a timestamp and eight bytes, and an AC3 packet that starts a frame. -/
def fittingCalls : List Call :=
  [⟨0xe0, [0, 16, 0x80, 0x80, 5, 0x21, 0, 1, 0, 0x5b]⟩,
    ⟨0xbd, [0, 17, 0x80, 0x80, 5, 0x21, 0, 1, 0, 0x5b, 0x80, 1, 0, 1]⟩]

def fittingRun : PsRun := (run psStep (psStart loaded 0 0xe0 0x80 0xff) fittingCalls).get (by decide +kernel)

theorem accounted_fitting : Always psStep Accounted (psStart loaded 0 0xe0 0x80 0xff) fittingCalls :=
  (accounted_iff loaded 0 0xe0 0x80 0xff (t := fittingRun) (Option.some_get _).symm).mpr
    (by decide +kernel)

/-- An AC3 packet whose first frame starts behind a byte of the frame before, and the interrupt that
stores the four bytes of it. -/
def restCalls : List Call :=
  [⟨0xbd, [0, 12, 0x80, 0, 0, 0x80, 1, 0, 3]⟩, ⟨0xba, []⟩]

/-- The rest of a packet is stored and not counted. -/
theorem not_accounted : ¬ ∀ (old : Parser) (remaining : UInt32) (vid aid sid : UInt8) (t : PsRun)
    (calls : List Call), run psStep (psStart old remaining vid aid sid) calls = some t →
      Always psStep Accounted (psStart old remaining vid aid sid) calls := by
  intro hall
  have hend : (run psStep (psStart loaded 0 0xe0 0x80 0xff) restCalls).map
      (fun s => (s.parser.audioDataParsed, s.stored .audio)) = some (0, 4) := by decide +kernel
  obtain ⟨u, hu, hcounts⟩ := Option.map_eq_some_iff.mp hend
  obtain ⟨hparsed, hstored⟩ := Prod.mk.inj hcounts
  have haudio := (always_last (hall loaded 0 0xe0 0x80 0xff u restCalls hu) hu).parsed .audio
  rw [hstored] at haudio
  have hzero : u.parser.parsed .audio = 0 := hparsed
  rw [hzero] at haudio
  exact absurd haudio (by decide)

end runs

end MediaModules.PsParser
