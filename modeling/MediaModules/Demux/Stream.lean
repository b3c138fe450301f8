import Mathlib.Tactic.Common
import MediaModules.Lib.Buffer
import MediaModules.Demux.TsParser

/-!
# Cutting a transport stream into calls

`t5d_process_stream` keeps up to 187 unread bytes in a cache between two calls and moves
the data of one call through a 4096-byte work buffer. The calls together deliver what one
greedy parse of the whole stream delivers, whatever the cut, and no copy leaves its buffer.
-/
namespace MediaModules.Demux

open MediaModules.Lib.Buffer MediaModules.Lib.Framing

/-- `T5D_STREAM_TS_BUFFER_SIZE`. -/
abbrev tsBufferSize : Nat := 4096

/-- The fields of `struct t5d_stream` that `t5d_process_stream` reads and writes. -/
structure Stream where
  swTsParser : TsParser
  cacheBuffer : Block UInt8 188
  cacheLen : Nat
  tsBuffer : Option (Block UInt8 tsBufferSize)

/-- `stream_init` on zeroed memory. -/
def streamInit : Stream := ⟨tsParserNew, Block.fill 188 0, 0, none⟩

/-- The `while (1)` loop of `t5d_process_stream`. Packets are delivered from the part of
`buf` the parser has consumed, which no later copy reads, so callbacks that rewrite a
packet in place do not show here. A loop that never ends runs out of fuel. -/
def refill (tsp : TsParser) (cache : Block UInt8 188) :
    Nat → Block UInt8 tsBufferSize → Nat → List UInt8 →
      Option (List Tspacket × Block UInt8 tsBufferSize × Block UInt8 188 × Nat)
  | 0, _, _, _ => none
  | fuel + 1, buf, buffered, src => do
    let cpy := min src.length (tsBufferSize - buffered)
    let buf ← buf.write buffered (src.take cpy)
    let buffered := buffered + cpy
    let src := src.drop cpy
    let data ← buf.read 0 buffered
    let solved := (tsParserRun tsp data).2
    let bufLeft := buffered - solved
    let tail ← buf.read solved bufLeft
    if src.length ≠ 0 then
      let buf ← buf.copy 0 tail
      let r ← refill tsp cache fuel buf bufLeft src
      return ((tsParserRun tsp data).1 ++ r.1, r.2)
    else
      let cache ← cache.copy 0 tail
      return ((tsParserRun tsp data).1, buf, cache, bufLeft)

/-- `t5d_process_stream` on the stream of its source: the packets handed to the parser's
callbacks and the stream afterwards. `heap` is what `swdmx_malloc` returns. A length is a
number: the callers pass at most the data of one FIFO, which no `int` overflows. -/
def t5dProcessStream (heap : Block UInt8 tsBufferSize) (s : Stream) (data : List UInt8) :
    Option (List Tspacket × Stream) :=
  let buf := s.tsBuffer.getD heap
  if data.length + s.cacheLen < 188 then do
    let cache ← s.cacheBuffer.write s.cacheLen data
    return ([], { s with
      cacheBuffer := cache, cacheLen := s.cacheLen + data.length, tsBuffer := some buf })
  else do
    let cached ← s.cacheBuffer.read 0 s.cacheLen
    let buf ← buf.copy 0 cached
    let r ← refill s.swTsParser s.cacheBuffer (data.length + 1) buf s.cacheLen data
    return (r.1, { s with
      cacheBuffer := r.2.2.1, cacheLen := r.2.2.2, tsBuffer := some r.2.1 })

/-- Successive calls on one source: everything delivered, and the stream after the last. -/
def processCalls (heap : Block UInt8 tsBufferSize) :
    Stream → List (List UInt8) → Option (List Tspacket × Stream)
  | s, [] => some ([], s)
  | s, data :: calls => do
    let r ← t5dProcessStream heap s data
    let q ← processCalls heap r.2 calls
    return (r.1 ++ q.1, q.2)

/-- The framer of 188-byte packets. -/
def tsFramer : Framer UInt8 (List UInt8) := greedy 188 (by decide)

/-- The greedy parse of a stream of 188-byte packets. -/
def greedyParse (l : List UInt8) : List (List UInt8) × List UInt8 := tsFramer.parse l

/-- The unread bytes of a stream are `c`, and they are too few for a packet. -/
structure Caches (s : Stream) (c : List UInt8) : Prop where
  packet_size : s.swTsParser = tsParserNew
  len_eq : s.cacheLen = c.length
  short : c.length < 188
  contents : s.cacheBuffer.cells.take s.cacheLen = c

theorem tsFramer_next_none {c : List UInt8} : tsFramer.next c = none ↔ c.length < 188 :=
  greedyNext_none (by decide)

theorem greedyParse_short {c : List UInt8} (h : c.length < 188) : greedyParse c = ([], c) :=
  tsFramer.parse_none (tsFramer_next_none.mpr h)

theorem greedyParse_tail_length (l : List UInt8) : (greedyParse l).2.length < 188 :=
  tsFramer_next_none.mp (tsFramer.next_parse_tail l)

theorem greedyParse_append (a b : List UInt8) :
    greedyParse (a ++ b) = ((greedyParse a).1 ++ (greedyParse ((greedyParse a).2 ++ b)).1,
      (greedyParse ((greedyParse a).2 ++ b)).2) :=
  tsFramer.parse_append a b

/-- What the parser reports on a buffer that holds `data`. -/
theorem tsParserRun_new (data : List UInt8) :
    (tsParserRun tsParserNew data).1 = (greedyParse data).1.filterMap tsPacket ∧
    (tsParserRun tsParserNew data).2 + (greedyParse data).2.length = data.length ∧
    data.drop (tsParserRun tsParserNew data).2 = (greedyParse data).2 := by
  obtain ⟨h1, h2, h3⟩ := tsParserRun_eq tsParserNew data
  have hl := congrArg List.length h3
  rw [List.length_drop] at hl
  refine ⟨h1, ?_, h3⟩
  show _ + ((greedy tsParserNew.packetSize _).parse data).2.length = _
  omega

theorem copy_front {n : Nat} (b : Block UInt8 n) (t : List UInt8) (h : t.length ≤ n) :
    ∃ b', b.copy 0 t = some b' ∧ b'.cells.take t.length = t := by
  obtain ⟨b', h1, h2⟩ := b.copy_of_le 0 t (by omega)
  exact ⟨b', h1, by simpa using h2.front⟩

/-- One refill: the buffer holds the unread tail `c`, a copy appends as much of the source
as fits, and the loop goes on with the tail the parser leaves. The induction is on the
fuel; a round with source left copies at least one byte, since `c` is shorter than a packet. -/
theorem refill_spec (cache : Block UInt8 188) :
    ∀ (fuel : Nat) (buf : Block UInt8 tsBufferSize) (c src : List UInt8),
      src.length < fuel → c.length < 188 → buf.cells.take c.length = c →
      ∃ (buf' : Block UInt8 tsBufferSize) (cache' : Block UInt8 188),
        refill tsParserNew cache fuel buf c.length src =
          some ((greedyParse (c ++ src)).1.filterMap tsPacket, buf', cache',
            (greedyParse (c ++ src)).2.length) ∧
        cache'.cells.take (greedyParse (c ++ src)).2.length = (greedyParse (c ++ src)).2 := by
  intro fuel
  induction fuel with
  | zero => intro buf c src h; omega
  | succ fuel ih =>
    intro buf c src hf hc hbuf
    obtain ⟨cpy, hcpy⟩ : ∃ cpy, min src.length (tsBufferSize - c.length) = cpy := ⟨_, rfl⟩
    have htake : (src.take cpy).length = cpy := by rw [List.length_take]; omega
    have hsize : tsBufferSize = 4096 := rfl
    obtain ⟨buf₁, hw, -⟩ := buf.write_of_le c.length (src.take cpy)
      (by rw [htake]; omega)
    -- the work buffer now starts with the tail and the copied bytes
    have hdata : buf₁.cells.take (c.length + cpy) = c ++ src.take cpy := by
      have h := Block.write_take hw
      rwa [htake, hbuf] at h
    have hread : buf₁.read 0 (c.length + cpy) = some (c ++ src.take cpy) := by
      rw [Block.read_zero _ (by omega), hdata]
    obtain ⟨hpkts, hlen, hdrop⟩ := tsParserRun_new (c ++ src.take cpy)
    rw [List.length_append, htake] at hlen
    have hshort := greedyParse_tail_length (c ++ src.take cpy)
    have htail : buf₁.read (tsParserRun tsParserNew (c ++ src.take cpy)).2
        (c.length + cpy - (tsParserRun tsParserNew (c ++ src.take cpy)).2) =
          some (greedyParse (c ++ src.take cpy)).2 := by
      rw [Block.read_of_le _ (by omega), ← hdrop, ← hdata, List.drop_take]
    have hleft : c.length + cpy - (tsParserRun tsParserNew (c ++ src.take cpy)).2 =
        (greedyParse (c ++ src.take cpy)).2.length := by omega
    rw [hleft] at htail
    simp only [refill, hcpy, hw, Option.bind_some, Option.bind_eq_bind, hread, hleft, htail]
    by_cases hmore : (src.drop cpy).length = 0
    · have hall : src.take cpy = src := by
        rw [List.length_drop] at hmore
        exact List.take_of_length_le (by omega)
      rw [if_neg (by simpa using hmore)]
      rw [hall] at hpkts hshort ⊢
      obtain ⟨cache', h1, h2⟩ := copy_front cache _ (Nat.le_of_lt hshort)
      exact ⟨buf₁, cache', by rw [h1, hpkts]; rfl, h2⟩
    · have hpos : 0 < cpy := by rw [List.length_drop] at hmore; omega
      rw [if_pos (by simpa using hmore)]
      obtain ⟨buf₂, h1, h2⟩ := copy_front buf₁ (greedyParse (c ++ src.take cpy)).2 (by omega)
      obtain ⟨buf', cache', h3, h4⟩ := ih buf₂ _ (src.drop cpy)
        (by rw [List.length_drop] at hmore ⊢; omega) hshort h2
      have hjoin : c ++ src = (c ++ src.take cpy) ++ src.drop cpy := by
        rw [List.append_assoc, List.take_append_drop]
      rw [hjoin, greedyParse_append (c ++ src.take cpy), List.filterMap_append]
      refine ⟨buf', cache', ?_, h4⟩
      rw [h1, Option.bind_some, h3, Option.bind_some, hpkts]
      rfl

/-- One call delivers the packets of the unread tail followed by its data, and caches the
new tail. -/
theorem t5dProcessStream_spec (heap : Block UInt8 tsBufferSize) {s : Stream} {c : List UInt8}
    (hs : Caches s c) (data : List UInt8) :
    ∃ s', t5dProcessStream heap s data =
        some ((greedyParse (c ++ data)).1.filterMap tsPacket, s') ∧
      Caches s' (greedyParse (c ++ data)).2 := by
  have hl := hs.len_eq
  have hc := hs.short
  unfold t5dProcessStream
  by_cases hshort : data.length + s.cacheLen < 188
  · rw [if_pos hshort, greedyParse_short (by rw [List.length_append]; omega)]
    obtain ⟨cache, hw, -⟩ := s.cacheBuffer.write_of_le s.cacheLen data (by omega)
    refine ⟨{ s with
      cacheBuffer := cache, cacheLen := s.cacheLen + data.length,
      tsBuffer := some (s.tsBuffer.getD heap) }, by rw [hw]; rfl, hs.packet_size, ?_, ?_, ?_⟩
    · simp [hl]
    · rw [List.length_append]; omega
    · show cache.cells.take (s.cacheLen + data.length) = _
      rw [Block.write_take hw, hs.contents]
  · rw [if_neg hshort, Block.read_zero _ (by omega), hs.contents, hl, hs.packet_size]
    obtain ⟨buf, hw, hbuf⟩ := copy_front (s.tsBuffer.getD heap) c
      (by have : tsBufferSize = 4096 := rfl; omega)
    obtain ⟨buf', cache', h1, h2⟩ := refill_spec s.cacheBuffer (data.length + 1) buf c data
      (by omega) hc hbuf
    simp only [Option.bind_some, Option.bind_eq_bind, hw, h1]
    exact ⟨_, rfl, rfl, rfl, greedyParse_tail_length _, h2⟩

theorem caches_init : Caches streamInit [] := ⟨rfl, rfl, by decide, rfl⟩

/-- Calls that start from a cached tail feed their data to the framer, one after the other. -/
theorem processCalls_feed (heap : Block UInt8 tsBufferSize) (calls : List (List UInt8)) :
    ∀ {s : Stream} {c : List UInt8}, Caches s c →
      ∃ s', processCalls heap s calls =
          some ((tsFramer.feed c calls).1.filterMap tsPacket, s') ∧
        Caches s' (tsFramer.feed c calls).2 := by
  induction calls with
  | nil => exact fun {s c} hs => ⟨s, rfl, hs⟩
  | cons data calls ih =>
    intro s c hs
    obtain ⟨s₁, h1, hs₁⟩ := t5dProcessStream_spec heap hs data
    obtain ⟨s₂, h2, hs₂⟩ := ih hs₁
    refine ⟨s₂, ?_, hs₂⟩
    simp only [processCalls, h1, h2, Option.bind_some, Option.bind_eq_bind]
    rw [Framer.feed, List.filterMap_append]
    rfl

/-- **The cut does not matter.** For every stream and every way of cutting it into calls,
the packets handed to the parser's callbacks are those of one greedy parse of the whole
stream, and after the last call (so after each call) the cache is exactly the unread tail. -/
theorem process_stream_any_cut (heap : Block UInt8 tsBufferSize) (calls : List (List UInt8)) :
    ∃ s', processCalls heap streamInit calls =
        some ((greedyParse calls.flatten).1.filterMap tsPacket, s') ∧
      s'.cacheBuffer.cells.take s'.cacheLen = (greedyParse calls.flatten).2 ∧
      s'.cacheLen < 188 := by
  have hfeed : tsFramer.feed [] calls = greedyParse calls.flatten :=
    tsFramer.feed_eq_parse (tsFramer_next_none.mpr (by decide)) calls
  obtain ⟨s', h1, h2⟩ := processCalls_feed heap calls caches_init
  rw [hfeed] at h1 h2
  have hl := h2.len_eq
  have hc := h2.short
  exact ⟨s', h1, h2.contents, by rw [hl]; exact hc⟩

end MediaModules.Demux
