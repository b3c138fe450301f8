import Mathlib.Tactic.Common
import MediaModules.Lib.Framing

/-!
# The TS packet parser

`swdmx_ts_parser_run` walks a byte buffer, skips bytes until a sync byte and hands
every packet to the callbacks. The greedy parse of a stream is the framer below it.
-/
namespace MediaModules.Demux

open MediaModules.Lib.Framing

/-- `struct swdmx_tspacket`. A pointer with its length is one optional byte list. -/
structure Tspacket where
  pid : UInt16
  payloadStart : UInt8
  priority : UInt8
  error : UInt8
  scramble : UInt8
  cc : UInt8
  packet : List UInt8
  adpField : Option (List UInt8)
  payload : Option (List UInt8)
  deriving Repr, DecidableEq

/-- `struct swdmx_ts_parser`, less its callbacks: the packets are the parser's result.
`swdmx_ts_parser_new` starts with 188 and the setter accepts nothing smaller. -/
structure TsParser where
  packetSize : Nat
  size_ge : 188 ≤ packetSize

def tsParserNew : TsParser := ⟨188, Nat.le_refl _⟩

/-- `swdmx_ts_parser_set_packet_size`; `none` is `SWDMX_ERR`. -/
def tsParserSetPacketSize (size : Nat) : Option TsParser :=
  if h : size < 188 then none else some ⟨size, by omega⟩

/-- `ts_packet`: the packet given to the callbacks. Null packets and packets whose
adaptation field runs over the end are dropped. -/
def tsPacket (p : List UInt8) : Option Tspacket :=
  let b := fun i => p.getD i 0
  let pid : UInt16 := ((b 1 &&& 0x1f).toUInt16 <<< 8) ||| (b 2).toUInt16
  let afc := (b 3 >>> 4) &&& 0x03
  let pkt : Tspacket :=
    { pid := pid
      payloadStart := (b 1 &&& 0x40) >>> 6
      priority := (b 1 &&& 0x20) >>> 5
      error := (b 1 &&& 0x80) >>> 7
      scramble := b 3 >>> 6
      cc := b 3 &&& 0x0f
      packet := p
      adpField := none
      payload := none }
  if pid = 0x1fff then none
  else if afc &&& 2 ≠ 0 then
    let adpFieldLen := (b 4).toNat
    -- `len` starts at 184 and counts the length byte and the field itself
    if 184 < 1 + adpFieldLen then none
    else some { pkt with
      adpField := some ((p.drop 5).take adpFieldLen)
      payload := if afc &&& 1 ≠ 0 then
        some ((p.drop (5 + adpFieldLen)).take (183 - adpFieldLen)) else none }
  else some { pkt with
    payload := if afc &&& 1 ≠ 0 then some ((p.drop 4).take 184) else none }

/-- The loop of `swdmx_ts_parser_run`: the packets delivered and the final `left`. -/
def parserLoop (tsp : TsParser) (p : List UInt8) : List Tspacket × Nat :=
  if _h : tsp.packetSize ≤ p.length then
    if p.head? = some 0x47 then
      ((tsPacket (p.take tsp.packetSize)).toList ++ (parserLoop tsp (p.drop tsp.packetSize)).1,
        (parserLoop tsp (p.drop tsp.packetSize)).2)
    else parserLoop tsp (p.drop 1)
  else ([], p.length)
termination_by p.length
decreasing_by
  all_goals
    have hs := tsp.size_ge
    rw [List.length_drop]
    omega

/-- `swdmx_ts_parser_run`: the packets delivered and the number of bytes consumed. -/
def tsParserRun (tsp : TsParser) (data : List UInt8) : List Tspacket × Nat :=
  ((parserLoop tsp data).1, data.length - (parserLoop tsp data).2)

/-! ## The greedy parse -/

/-- Skip one byte while the current byte is not `0x47`, otherwise take `size` bytes;
stop when fewer than `size` bytes remain. -/
def greedyNext (size : Nat) (l : List UInt8) : Option (Option (List UInt8) × List UInt8) :=
  if l.length < size then none
  else match l with
    | [] => none
    | b :: t => if b = 0x47 then some (some (l.take size), l.drop size) else some (none, t)

theorem greedyNext_none {size : Nat} (hs : 0 < size) {l : List UInt8} :
    greedyNext size l = none ↔ l.length < size := by
  unfold greedyNext
  split
  · simp_all
  · rename_i hl
    cases l with
    | nil => simp at hl; omega
    | cons b t =>
      dsimp only
      split <;> simpa using hl

theorem greedyNext_some {size : Nat} {l r : List UInt8} {o : Option (List UInt8)}
    (h : greedyNext size l = some (o, r)) :
    size ≤ l.length ∧ ∃ b t, l = b :: t ∧
      ((b = 0x47 ∧ o = some (l.take size) ∧ r = l.drop size) ∨ (b ≠ 0x47 ∧ o = none ∧ r = t)) := by
  unfold greedyNext at h
  split at h
  · cases h
  rename_i hl
  cases l with
  | nil => cases h
  | cons b t =>
    refine ⟨by omega, b, t, rfl, ?_⟩
    simp only at h
    split at h
    · rename_i hb
      obtain ⟨rfl, rfl⟩ : some ((b :: t).take size) = o ∧ (b :: t).drop size = r := by
        simpa only [Option.some.injEq, Prod.mk.injEq] using h
      exact Or.inl ⟨hb, rfl, rfl⟩
    · rename_i hb
      obtain ⟨rfl, rfl⟩ : none = o ∧ t = r := by
        simpa only [Option.some.injEq, Prod.mk.injEq] using h
      exact Or.inr ⟨hb, rfl, rfl⟩

/-- The greedy parse as a framer: a decision once taken stands whatever arrives later. -/
def greedy (size : Nat) (hs : 0 < size) : Framer UInt8 (List UInt8) where
  next := greedyNext size
  next_suffix := by
    intro l o r h
    obtain ⟨-, b, t, rfl, ⟨-, -, rfl⟩ | ⟨-, -, rfl⟩⟩ := greedyNext_some h
    · exact List.drop_suffix _ _
    · exact List.suffix_cons _ _
  next_lt := by
    intro l o r h
    obtain ⟨hl, b, t, rfl, ⟨-, -, rfl⟩ | ⟨-, -, rfl⟩⟩ := greedyNext_some h
    · rw [List.length_drop]; omega
    · simp
  next_append := by
    intro l o r h t
    obtain ⟨hl, b, u, rfl, hc⟩ := greedyNext_some h
    have hlen : ¬ (b :: u ++ t).length < size := by rw [List.length_append]; omega
    unfold greedyNext
    rw [if_neg hlen]
    rcases hc with ⟨hb, rfl, rfl⟩ | ⟨hb, rfl, rfl⟩
    · simp only [List.cons_append, hb, ↓reduceIte]
      rw [← List.cons_append, List.take_append_of_le_length (by rw [← hb]; exact hl),
        List.drop_append_of_le_length (by rw [← hb]; exact hl)]
    · simp only [List.cons_append, hb, ↓reduceIte]

theorem tsParser_size_pos (tsp : TsParser) : 0 < tsp.packetSize := by
  have h := tsp.size_ge
  omega

/-- The parser loop is the greedy parse, with every frame passed through `ts_packet`. -/
theorem parserLoop_eq (tsp : TsParser) (p : List UInt8) :
    parserLoop tsp p =
      (((greedy tsp.packetSize (tsParser_size_pos tsp)).parse p).1.filterMap tsPacket,
        ((greedy tsp.packetSize (tsParser_size_pos tsp)).parse p).2.length) := by
  induction p using (greedy tsp.packetSize (tsParser_size_pos tsp)).parse_induct with
  | stop p h =>
    have hl := (greedyNext_none (tsParser_size_pos tsp)).mp h
    rw [(greedy _ _).parse_none h, parserLoop, dif_neg (by omega)]
    rfl
  | step p o r h ih =>
    rw [(greedy _ _).parse_some h]
    obtain ⟨hl, b, t, rfl, ⟨rfl, rfl, rfl⟩ | ⟨hb, rfl, rfl⟩⟩ := greedyNext_some h
    · rw [parserLoop, dif_pos hl, if_pos (by rfl), ih]
      rw [Option.toList_some, List.filterMap_append]
      cases h : tsPacket (List.take tsp.packetSize (0x47 :: t)) <;> simp [h]
    · rw [parserLoop, dif_pos hl, if_neg (by simpa using hb), List.drop_one, List.tail_cons, ih,
        Option.toList_none, List.nil_append]

/-- What `swdmx_ts_parser_run` leaves unread is the tail of the greedy parse. -/
theorem tsParserRun_eq (tsp : TsParser) (data : List UInt8) :
    (tsParserRun tsp data).1 =
      ((greedy tsp.packetSize (tsParser_size_pos tsp)).parse data).1.filterMap tsPacket ∧
    (tsParserRun tsp data).2 ≤ data.length ∧
    data.drop (tsParserRun tsp data).2 =
      ((greedy tsp.packetSize (tsParser_size_pos tsp)).parse data).2 := by
  have hsuf := (greedy tsp.packetSize (tsParser_size_pos tsp)).parse_tail_suffix data
  have hloop := parserLoop_eq tsp data
  refine ⟨congrArg Prod.fst hloop, Nat.sub_le _ _, ?_⟩
  rw [tsParserRun, hloop]
  exact (List.suffix_iff_eq_drop.mp hsuf).symm

end MediaModules.Demux
