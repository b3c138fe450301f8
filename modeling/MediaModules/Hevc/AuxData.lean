import MediaModules.Lib.Buffer
import MediaModules.Lib.Run

/-!
# The metadata of a picture

`set_aux_data` copies the metadata of a picture, four words at a time, into records of the buffer that the
picture has. The words are counted against bytes, and the room in the buffer without the headers of the
records, so only what the stream has decides whether a copy stays inside.
-/
namespace MediaModules.Hevc

open Lib.Buffer Lib.Run

/-- The size of `aux_data_buf`. -/
abbrev AUX_DATA_SIZE1 : Nat := 24 * 1024

/-- What a picture has of its metadata. -/
structure AuxPic where
  auxDataBuf : Option (Block UInt8 AUX_DATA_SIZE1)
  auxDataSize : Nat := 0

/-- Four words; the tag is above the last one. -/
structure AuxGroup where
  w0 : UInt16
  w1 : UInt16
  w2 : UInt16
  w3 : UInt16

namespace AuxGroup

variable (g : AuxGroup)

def tag : UInt8 := (g.w3 >>> 8).toUInt8

/-- The bytes in the order they are copied. -/
def bytes : List UInt8 := [g.w3.toUInt8, g.w2.toUInt8, g.w1.toUInt8, g.w0.toUInt8]

/-- There is a tag. -/
def tagged : Bool := g.tag ≠ 0 ∧ g.tag ≠ 0xff

end AuxGroup

/-- The words in groups of four. -/
def auxGroups : List UInt16 → List AuxGroup
  | w0 :: w1 :: w2 :: w3 :: words => ⟨w0, w1, w2, w3⟩ :: auxGroups words
  | _ => []

/-- The tags that a flag selects: 1, dolby meta only; 2, not include dolby meta. -/
def selects (dvMetaFlag tag : UInt8) : Bool :=
  dvMetaFlag = 0 ∨ dvMetaFlag = 1 ∧ tag = 1 ∨ dvMetaFlag = 2 ∧ tag ≠ 1

/-- The variables of the second loop. -/
structure AuxLoop where
  buf : Block UInt8 AUX_DATA_SIZE1
  auxDataSize : Nat
  h : Nat
  p : Nat
  len : Nat := 0
  validTag : Bool := false

/-- A number in four bytes, the highest first. -/
def be32 (n : Nat) : List UInt8 :=
  [.ofNat (n / 16777216), .ofNat (n / 65536), .ofNat (n / 256), .ofNat n]

namespace AuxLoop

variable (s : AuxLoop)

/-- The length goes into the header, and the padding, of which there is none. -/
def closeRecord : Option AuxLoop := do
  let buf ← s.buf.write s.h (be32 s.len)
  let buf ← buf.write (s.h + 6) [0, 0]
  some { s with buf := buf, auxDataSize := s.auxDataSize + (s.len + 8) }

/-- The next header is behind the record. -/
def nextRecord : AuxLoop := { s with h := s.h + (s.len + 8), p := s.p + 8, len := 0 }

def startRecord (tag : UInt8) : Option AuxLoop := do
  let buf ← s.buf.write (s.h + 4) [tag, 0, 0, 0]
  some { s with buf := buf }

def putBytes (bytes : List UInt8) : Option AuxLoop := do
  let buf ← s.buf.write s.p bytes
  some { s with buf := buf, p := s.p + bytes.length, len := s.len + bytes.length }

end AuxLoop

/-- The second loop. It breaks in front of a record when there is not enough room for the header. -/
def auxLoop (dvMetaFlag : UInt8) : List AuxGroup → AuxLoop → Option AuxLoop
  | [], s => some s
  | g :: groups, s =>
    let validTag := if g.tagged then selects dvMetaFlag g.tag else s.validTag
    let starts : Bool := g.tagged ∧ validTag
    if starts ∧ 0 < s.len ∧ s.p > AUX_DATA_SIZE1 - 11 then some s
    else do
      let s ← if starts ∧ 0 < s.len then s.closeRecord.map AuxLoop.nextRecord else some s
      let s ← if starts then s.startRecord g.tag else some s
      let s ← if validTag then s.putBytes g.bytes else some s
      auxLoop dvMetaFlag groups { s with validTag := validTag }

/-- Behind the loop. -/
def AuxLoop.finish (s : AuxLoop) : Option AuxLoop := if 0 < s.len then s.closeRecord else some s

/-- What a call finds: whether there is metadata for a buffer in use, the register, and the words of the
two areas. -/
structure AuxCall where
  available : Bool
  sizeRegVal : Nat
  prefixAux : List UInt16
  suffixAux : List UInt16
  suffixFlag : Bool
  dvMetaFlag : UInt8

namespace AuxCall

variable (c : AuxCall)

/-- The words at `aux_adr`. -/
def area : List UInt16 := if c.suffixFlag then c.suffixAux else c.prefixAux

/-- The size of the area in bytes. -/
def auxSize : Nat := 2 * c.area.length

/-- The words to copy: the register has units of 16 bytes. -/
def auxCount : Nat :=
  if c.suffixFlag then (c.sizeRegVal % 65536) * 16 / 2 else (c.sizeRegVal / 65536) % 65536 * 16 / 2

end AuxCall

/-- The first words of an area, read one after the other. -/
def readArea (area : List UInt16) : Nat → Option (List UInt16)
  | 0 => some []
  | n + 1 => do
    let words ← readArea area n
    let word ← area[n]?
    some (words ++ [word])

/-- `set_aux_data`. The first loop reads every word, and the second one the same words again. -/
def setAuxData (pic : AuxPic) (c : AuxCall) : Option AuxPic :=
  if ¬ c.available then some pic
  else
    let auxCount :=
      if c.auxCount > c.auxSize ∨ pic.auxDataSize + c.auxCount > AUX_DATA_SIZE1 then 0 else c.auxCount
    if c.auxSize > 0 ∧ auxCount > 0 then do
      let words ← readArea c.area auxCount
      match pic.auxDataBuf with
      | none => some pic
      | some buf =>
        let s : AuxLoop :=
          { buf := buf, auxDataSize := pic.auxDataSize, h := pic.auxDataSize, p := pic.auxDataSize + 8 }
        let s ← auxLoop c.dvMetaFlag (auxGroups words) s
        let s ← s.finish
        some { auxDataBuf := some s.buf, auxDataSize := s.auxDataSize }
    else some pic

/-! ## Records -/

/-- A record: a tag, and the bytes up to the next tag. -/
structure AuxRecord where
  tag : UInt8
  payload : List UInt8
deriving DecidableEq, Repr

/-- A record in the buffer: the length, the tag, the flags and the bytes. -/
def AuxRecord.encode (r : AuxRecord) : List UInt8 := be32 r.payload.length ++ [r.tag, 0, 0, 0] ++ r.payload

/-- The records of a stream, and the bytes in front of them, which belong to the record before when the
tag of that was selected. -/
def recordsOf (dvMetaFlag : UInt8) : Bool → List AuxGroup → List UInt8 × List AuxRecord
  | _, [] => ([], [])
  | valid, g :: groups =>
    if g.tagged then
      let r := recordsOf dvMetaFlag (selects dvMetaFlag g.tag) groups
      if selects dvMetaFlag g.tag then ([], ⟨g.tag, g.bytes ++ r.1⟩ :: r.2) else ([], r.2)
    else
      let r := recordsOf dvMetaFlag valid groups
      if valid then (g.bytes ++ r.1, r.2) else ([], r.2)

/-- The records that are copied behind the first `start` bytes: those up to the first one that leaves no
room for another header. -/
def keepRecords (start : Nat) : List AuxRecord → List AuxRecord
  | [] => []
  | r :: rs =>
    if start + r.encode.length > AUX_DATA_SIZE1 - 11 then [r]
    else r :: keepRecords (start + r.encode.length) rs

/-- They end in the buffer. -/
def RecordsFit (start : Nat) (rs : List AuxRecord) : Prop :=
  start + ((keepRecords start rs).flatMap AuxRecord.encode).length ≤ AUX_DATA_SIZE1

instance (start : Nat) (rs : List AuxRecord) : Decidable (RecordsFit start rs) :=
  inferInstanceAs (Decidable (_ ≤ _))

section Records

variable {dv : UInt8} {r : AuxRecord} {rs : List AuxRecord} {start : Nat} {groups : List AuxGroup}

theorem encode_length (r : AuxRecord) : r.encode.length = r.payload.length + 8 := by
  simp only [AuxRecord.encode, be32, List.length_append, List.length_cons, List.length_nil]
  omega

theorem keep_last (h : start + r.encode.length > AUX_DATA_SIZE1 - 11) :
    keepRecords start (r :: rs) = [r] := if_pos h

theorem keep_more (h : ¬ start + r.encode.length > AUX_DATA_SIZE1 - 11) :
    keepRecords start (r :: rs) = r :: keepRecords (start + r.encode.length) rs := if_neg h

theorem recordsFit_last (h : start + r.encode.length > AUX_DATA_SIZE1 - 11) :
    RecordsFit start (r :: rs) ↔ start + r.encode.length ≤ AUX_DATA_SIZE1 := by
  rw [RecordsFit, keep_last h, List.flatMap_singleton]

theorem recordsFit_more (h : ¬ start + r.encode.length > AUX_DATA_SIZE1 - 11) :
    RecordsFit start (r :: rs) ↔ RecordsFit (start + r.encode.length) rs := by
  rw [RecordsFit, keep_more h, RecordsFit, List.flatMap_cons, List.length_append, Nat.add_assoc]

/-- The first record is copied whole. -/
theorem RecordsFit.head (h : RecordsFit start (r :: rs)) :
    start + r.encode.length ≤ AUX_DATA_SIZE1 := by
  by_cases hlast : start + r.encode.length > AUX_DATA_SIZE1 - 11
  · exact (recordsFit_last hlast).mp h
  · exact Nat.le_trans (Nat.not_lt.mp hlast) (by decide)

theorem recordsOf_false (groups : List AuxGroup) : (recordsOf dv false groups).1 = [] := by
  induction groups with
  | nil => rfl
  | cons g groups ih =>
    rw [recordsOf]
    split
    · split <;> rfl
    · rfl

/-- What a stream has of selected tags. -/
def selectedBytes (dvMetaFlag : UInt8) : Bool → List AuxGroup → List UInt8
  | _, [] => []
  | valid, g :: groups =>
    let valid := if g.tagged then selects dvMetaFlag g.tag else valid
    (if valid then g.bytes else []) ++ selectedBytes dvMetaFlag valid groups

/-- The payloads of the records are the selected bytes of the stream, in its order. -/
theorem recordsOf_payloads (dv : UInt8) (valid : Bool) (groups : List AuxGroup) :
    (recordsOf dv valid groups).1 ++ (recordsOf dv valid groups).2.flatMap AuxRecord.payload =
      selectedBytes dv valid groups := by
  induction groups generalizing valid with
  | nil => rfl
  | cons g groups ih =>
    rw [recordsOf, selectedBytes]
    cases htagged : g.tagged with
    | false =>
      cases valid with
      | false => exact (congrArg (· ++ _) (recordsOf_false groups).symm).trans (ih false)
      | true =>
        simp only [Bool.false_eq_true, if_false, if_true, List.append_assoc]
        rw [ih true]
    | true =>
      rw [← ih]
      cases hselects : selects dv g.tag with
      | false => simp [recordsOf_false]
      | true => simp

end Records

/-! ## The loop -/

section Loop

variable {n : Nat} {s s' : AuxLoop} {r : AuxRecord} {done : List UInt8} {dv : UInt8}

/-- Between records: the buffer has what is done, up to where the next header goes. -/
structure Closed (s : AuxLoop) (done : List UInt8) : Prop where
  size : s.auxDataSize = done.length
  h : s.h = done.length
  p : s.p = done.length + 8
  len : s.len = 0
  content : ∃ behind, s.buf.cells = done ++ behind

/-- In a record: its header is there but for the length, and its bytes so far. -/
structure Opened (s : AuxLoop) (r : AuxRecord) (done : List UInt8) : Prop where
  size : s.auxDataSize = done.length
  h : s.h = done.length
  p : s.p = done.length + 8 + r.payload.length
  len : s.len = r.payload.length
  pos : 0 < r.payload.length
  content : ∃ gap behind, gap.length = 4 ∧
    s.buf.cells = done ++ (gap ++ ([r.tag, 0, 0, 0] ++ (r.payload ++ behind)))

theorem Opened.inside (h : Opened s r done) : s.p ≤ AUX_DATA_SIZE1 := by
  obtain ⟨gap, behind, hgap, hcells⟩ := h.content
  have hsize := s.buf.size_eq
  rw [hcells] at hsize
  simp only [List.length_append, hgap, List.length_cons, List.length_nil] at hsize
  rw [h.p]
  omega

theorem Closed.setValid (h : Closed s done) (valid : Bool) : Closed { s with validTag := valid } done :=
  ⟨h.size, h.h, h.p, h.len, h.content⟩

theorem Opened.setValid (h : Opened s r done) (valid : Bool) :
    Opened { s with validTag := valid } r done :=
  ⟨h.size, h.h, h.p, h.len, h.pos, h.content⟩

/-- A record is closed. -/
theorem Opened.close (h : Opened s r done) : ∃ t, s.closeRecord = some t ∧
    t.auxDataSize = (done ++ r.encode).length ∧ (∃ behind, t.buf.cells = done ++ r.encode ++ behind) ∧
    t.h = s.h ∧ t.p = s.p ∧ t.len = s.len := by
  obtain ⟨gap, behind, hgap, hcells⟩ := h.content
  obtain ⟨buf, hwrite, hbuf⟩ := Block.write_over hcells (hgap.trans (show 4 = (be32 s.len).length from rfl))
  have hlength : s.h + 6 = (done ++ be32 s.len ++ [r.tag, 0]).length := by
    simp [h.h, be32]
  have hbuf0 : buf.cells = (done ++ be32 s.len ++ [r.tag, 0]) ++ ([0, 0] ++ (r.payload ++ behind)) := by
    rw [hbuf]
    simp
  obtain ⟨buf', hwrite', hbuf'⟩ := @Block.write_over _ _ _ _ _ _ [0, 0] hbuf0 rfl
  refine ⟨{ s with buf := buf', auxDataSize := s.auxDataSize + (s.len + 8) }, ?_, ?_, ⟨behind, ?_⟩, rfl,
    rfl, rfl⟩
  · rw [AuxLoop.closeRecord, h.h, hwrite, Option.bind_eq_bind, Option.bind_some, ← h.h, hlength, hwrite']
    rfl
  · rw [List.length_append, encode_length, h.size, h.len]
  · rw [hbuf', AuxRecord.encode, h.len]
    simp

theorem Opened.next (h : Opened s r done) :
    ∃ t, s.closeRecord.map AuxLoop.nextRecord = some t ∧ Closed t (done ++ r.encode) := by
  obtain ⟨t, hclose, hsize, hcontent, hh, hp, hlen⟩ := h.close
  refine ⟨t.nextRecord, by rw [hclose]; rfl, hsize, ?_, ?_, rfl, hcontent⟩
  · show t.h + (t.len + 8) = _
    rw [hh, hlen, h.h, h.len, List.length_append, encode_length]
  · show t.p + 8 = _
    rw [hp, h.p, List.length_append, encode_length]
    omega

/-- A record is started with its first bytes, where there is room. -/
theorem Closed.start (h : Closed s done) (tag : UInt8) {bytes : List UInt8} (hbytes : 0 < bytes.length)
    (hroom : done.length + 8 + bytes.length ≤ AUX_DATA_SIZE1) :
    ∃ t, ((s.startRecord tag).bind fun s => s.putBytes bytes) = some t ∧
      Opened t ⟨tag, bytes⟩ done := by
  obtain ⟨behind, hcells⟩ := h.content
  have hsize := s.buf.size_eq
  rw [hcells, List.length_append] at hsize
  have hgap : (behind.take 4).length = 4 := by
    rw [List.length_take]
    omega
  have hsplit : s.buf.cells = (done ++ behind.take 4) ++ behind.drop 4 := by
    rw [hcells, List.append_assoc, List.take_append_drop]
  obtain ⟨buf, hwrite, hbuf⟩ := Block.write_next hsplit [tag, 0, 0, 0] (by
    simp only [List.length_append, hgap, List.length_cons, List.length_nil]
    omega)
  rw [← List.append_assoc] at hbuf
  obtain ⟨buf', hwrite', hbuf'⟩ := Block.write_next hbuf bytes (by
      simp only [List.length_append, hgap, List.length_cons, List.length_nil]
      omega)
  have hplace : s.h + 4 = (done ++ behind.take 4).length := by rw [h.h, List.length_append, hgap]
  have hplace' : s.p = (done ++ behind.take 4 ++ [tag, 0, 0, 0]).length := by
    simp [h.p, List.length_append, hgap]
  refine ⟨{ s with buf := buf', p := s.p + bytes.length, len := s.len + bytes.length }, ?_,
    h.size, h.h, ?_, ?_, hbytes, behind.take 4, _, hgap, by simpa using hbuf'⟩
  · rw [AuxLoop.startRecord, hplace, hwrite, Option.bind_eq_bind, Option.bind_some, Option.bind_some,
      AuxLoop.putBytes]
    dsimp only
    rw [hplace', hwrite']
    rfl
  · show s.p + bytes.length = _
    rw [h.p]
  · show s.len + bytes.length = _
    rw [h.len, Nat.zero_add]

theorem Closed.start_none (h : Closed s done) (tag : UInt8) {bytes : List UInt8}
    (hroom : ¬ done.length + 8 + bytes.length ≤ AUX_DATA_SIZE1) :
    ((s.startRecord tag).bind fun s => s.putBytes bytes) = none := by
  rw [AuxLoop.startRecord]
  cases s.buf.write (s.h + 4) [tag, 0, 0, 0] with
  | none => rfl
  | some buf =>
    rw [Option.bind_eq_bind, Option.bind_some, Option.bind_some, AuxLoop.putBytes]
    dsimp only
    rw [h.p, Block.write_none _ hroom]
    rfl

/-- Bytes are added to a record, where there is room. -/
theorem Opened.put (h : Opened s r done) (bytes : List UInt8)
    (hroom : done.length + 8 + (r.payload ++ bytes).length ≤ AUX_DATA_SIZE1) :
    ∃ t, s.putBytes bytes = some t ∧ Opened t ⟨r.tag, r.payload ++ bytes⟩ done := by
  obtain ⟨gap, behind, hgap, hcells⟩ := h.content
  rw [List.length_append] at hroom
  have hsplit : s.buf.cells = (done ++ gap ++ [r.tag, 0, 0, 0] ++ r.payload) ++ behind := by
    simp [hcells]
  obtain ⟨buf, hwrite, hbuf⟩ := Block.write_next hsplit bytes (by
      simp only [List.length_append, hgap, List.length_cons, List.length_nil]
      omega)
  have hplace : s.p = (done ++ gap ++ [r.tag, 0, 0, 0] ++ r.payload).length := by
    simp only [h.p, List.length_append, hgap, List.length_cons, List.length_nil]
  refine ⟨{ s with buf := buf, p := s.p + bytes.length, len := s.len + bytes.length }, ?_, h.size, h.h,
    ?_, ?_, ?_, gap, _, hgap, by simpa using hbuf⟩
  · rw [AuxLoop.putBytes, hplace, hwrite]
    rfl
  · show s.p + bytes.length = done.length + 8 + (r.payload ++ bytes).length
    rw [h.p, List.length_append, Nat.add_assoc]
  · show s.len + bytes.length = (r.payload ++ bytes).length
    rw [h.len, List.length_append]
  · show 0 < (r.payload ++ bytes).length
    rw [List.length_append]
    exact Nat.add_pos_left h.pos _

theorem Opened.put_none (h : Opened s r done) (bytes : List UInt8)
    (hroom : ¬ done.length + 8 + (r.payload ++ bytes).length ≤ AUX_DATA_SIZE1) :
    s.putBytes bytes = none := by
  rw [List.length_append, ← Nat.add_assoc, ← h.p] at hroom
  rw [AuxLoop.putBytes, Block.write_none _ hroom]
  rfl

/-- What is copied behind the bytes that are done: the records, as long as they fit. -/
def Copies (o : Option AuxLoop) (done : List UInt8) (rs : List AuxRecord) : Prop :=
  if RecordsFit done.length rs then ∃ t, o = some t ∧
    t.auxDataSize = (done ++ (keepRecords done.length rs).flatMap AuxRecord.encode).length ∧
    ∃ behind, t.buf.cells = done ++ (keepRecords done.length rs).flatMap AuxRecord.encode ++ behind
  else o = none

-- otherwise a tactic that looks at a goal of this form evaluates the condition
attribute [irreducible] Copies

/-- A record that is closed is the first of those that are copied. -/
theorem Copies.more {o : Option AuxLoop} {rs : List AuxRecord}
    (hroom : ¬ done.length + r.encode.length > AUX_DATA_SIZE1 - 11)
    (h : Copies o (done ++ r.encode) rs) : Copies o done (r :: rs) := by
  rw [Copies, List.length_append] at h
  rw [Copies, if_congr (recordsFit_more hroom) rfl rfl, keep_more hroom, List.flatMap_cons]
  simpa only [List.append_assoc, List.length_append] using h

theorem copies_none {o : Option AuxLoop} {rs : List AuxRecord}
    (hroom : ¬ done.length + r.encode.length ≤ AUX_DATA_SIZE1) (h : o = none) :
    Copies o done (r :: rs) := by
  rw [Copies, if_neg fun hfit => hroom hfit.head]
  exact h

/-- A record that is the last one, or leaves no room for another header. -/
theorem Opened.copies (h : Opened s r done) {rs : List AuxRecord}
    (hlast : keepRecords done.length (r :: rs) = [r]) : Copies s.closeRecord done (r :: rs) := by
  have hinside := h.inside
  obtain ⟨t, hclose, hsize, hcontent, -⟩ := h.close
  have hfit : RecordsFit done.length (r :: rs) := by
    rw [RecordsFit, hlast, List.flatMap_singleton, encode_length]
    rw [h.p] at hinside
    omega
  rw [Copies, if_pos hfit, hlast, List.flatMap_singleton]
  exact ⟨t, hclose, hsize, hcontent⟩

/-- What follows a record's first bytes: it goes on where there is room for these. -/
theorem Closed.copies_start {rest : AuxLoop → Option AuxLoop} {bytes more : List UInt8}
    {rs : List AuxRecord} (h : Closed s done) (tag : UInt8) (hbytes : 0 < bytes.length)
    (hrest : ∀ t, Opened t ⟨tag, bytes⟩ done → Copies (rest t) done (⟨tag, bytes ++ more⟩ :: rs)) :
    Copies (((s.startRecord tag).bind fun s => s.putBytes bytes).bind rest) done
      (⟨tag, bytes ++ more⟩ :: rs) := by
  by_cases hroom : done.length + 8 + bytes.length ≤ AUX_DATA_SIZE1
  · obtain ⟨t, ht, hopened⟩ := h.start tag hbytes hroom
    rw [ht, Option.bind_some]
    exact hrest t hopened
  · have hno : ¬ done.length + (AuxRecord.encode ⟨tag, bytes ++ more⟩).length ≤ AUX_DATA_SIZE1 := by
      rw [encode_length, List.length_append]
      omega
    rw [h.start_none tag hroom, Option.bind_none]
    exact copies_none hno rfl

/-- What follows bytes that are added to a record. -/
theorem Opened.copies_put {rest : AuxLoop → Option AuxLoop} {more : List UInt8} {rs : List AuxRecord}
    (h : Opened s r done) (bytes : List UInt8)
    (hrest : ∀ t, Opened t ⟨r.tag, r.payload ++ bytes⟩ done →
      Copies (rest t) done (⟨r.tag, r.payload ++ bytes ++ more⟩ :: rs)) :
    Copies ((s.putBytes bytes).bind rest) done (⟨r.tag, r.payload ++ bytes ++ more⟩ :: rs) := by
  by_cases hroom : done.length + 8 + (r.payload ++ bytes).length ≤ AUX_DATA_SIZE1
  · obtain ⟨t, ht, hopened⟩ := h.put bytes hroom
    rw [ht, Option.bind_some]
    exact hrest t hopened
  · have hno : ¬ done.length + (AuxRecord.encode ⟨r.tag, r.payload ++ bytes ++ more⟩).length ≤
        AUX_DATA_SIZE1 := by
      rw [encode_length, List.length_append]
      omega
    rw [h.put_none bytes hroom, Option.bind_none]
    exact copies_none hno rfl

theorem auxLoop_starts {g : AuxGroup} (groups : List AuxGroup) (htagged : g.tagged = true)
    (hselects : selects dv g.tag = true) (hroom : ¬ (0 < s.len ∧ s.p > AUX_DATA_SIZE1 - 11)) :
    auxLoop dv (g :: groups) s =
      (if 0 < s.len then s.closeRecord.map AuxLoop.nextRecord else some s).bind fun s =>
        ((s.startRecord g.tag).bind fun s => s.putBytes g.bytes).bind fun s =>
          auxLoop dv groups { s with validTag := true } := by
  simp only [auxLoop, htagged, hselects, if_true, true_and, hroom, if_false, decide_true,
    Option.bind_eq_bind, Option.bind_assoc, and_self]
  split <;> rfl

/-- A group that leaves no room. -/
theorem auxLoop_breaks {g : AuxGroup} (groups : List AuxGroup) (htagged : g.tagged = true)
    (hselects : selects dv g.tag = true) (hroom : 0 < s.len ∧ s.p > AUX_DATA_SIZE1 - 11) :
    auxLoop dv (g :: groups) s = some s := by
  simp only [auxLoop, htagged, hselects, if_true, hroom, decide_true, and_self]

/-- A group that starts none. -/
theorem auxLoop_goes {g : AuxGroup} (groups : List AuxGroup) {valid : Bool}
    (hvalid : (if g.tagged then selects dv g.tag else s.validTag) = valid)
    (hstarts : ¬ (g.tagged = true ∧ valid = true)) :
    auxLoop dv (g :: groups) s = (if valid then s.putBytes g.bytes else some s).bind fun s =>
      auxLoop dv groups { s with validTag := valid } := by
  simp only [auxLoop, hvalid, hstarts, decide_false, Bool.false_eq_true, false_and, if_false,
    Option.bind_eq_bind, Option.bind_some]
  split <;> rfl

/-- The induction is along the groups; a record may be open. -/
theorem loop_copies (dv : UInt8) (groups : List AuxGroup) : ∀ (s : AuxLoop) (done : List UInt8),
    (Closed s done → s.validTag = false →
      Copies ((auxLoop dv groups s).bind AuxLoop.finish) done (recordsOf dv false groups).2) ∧
    (∀ r, Opened s r done → Copies ((auxLoop dv groups s).bind AuxLoop.finish) done
      (⟨r.tag, r.payload ++ (recordsOf dv s.validTag groups).1⟩ ::
        (recordsOf dv s.validTag groups).2)) := by
  induction groups with
  | nil =>
    intro s done
    refine ⟨fun h _ => ?_, fun r h => ?_⟩
    · have hfinish : (auxLoop dv [] s).bind AuxLoop.finish = some s := by
        rw [auxLoop, Option.bind_some, AuxLoop.finish, h.len]
        rfl
      have hinside := s.buf.size_eq
      obtain ⟨behind, hcells⟩ := h.content
      rw [hcells, List.length_append] at hinside
      have hfit : RecordsFit done.length (recordsOf dv false []).2 :=
        Nat.le.intro hinside
      rw [hfinish, Copies, if_pos hfit]
      exact ⟨s, rfl, by rw [h.size]; simp [recordsOf, keepRecords], behind, by
        rw [hcells]; simp [recordsOf, keepRecords]⟩
    · have hpos : 0 < s.len := h.len ▸ h.pos
      rw [auxLoop, Option.bind_some, AuxLoop.finish, if_pos hpos, recordsOf, List.append_nil]
      refine h.copies ?_
      rw [keepRecords]
      split <;> rfl
  | cons g groups ih =>
    intro s done
    have hbytes : g.bytes.length = 4 := rfl
    -- what a record that starts here copies
    have hstart (s : AuxLoop) (done : List UInt8) (h : Closed s done) : Copies
        (((s.startRecord g.tag).bind fun s => s.putBytes g.bytes).bind fun s =>
          (auxLoop dv groups { s with validTag := true }).bind AuxLoop.finish) done
        (⟨g.tag, g.bytes ++ (recordsOf dv true groups).1⟩ :: (recordsOf dv true groups).2) := by
      have hpos : 0 < g.bytes.length := hbytes ▸ Nat.succ_pos 3
      refine h.copies_start g.tag hpos fun t hopened => ?_
      have hcopies := (ih { t with validTag := true } done).2 ⟨g.tag, g.bytes⟩ (hopened.setValid true)
      dsimp only at hcopies
      exact hcopies
    cases htagged : g.tagged with
    | true =>
      cases hselects : selects dv g.tag with
      | true =>
        have hrecords (valid : Bool) : recordsOf dv valid (g :: groups) = ([],
            ⟨g.tag, g.bytes ++ (recordsOf dv true groups).1⟩ :: (recordsOf dv true groups).2) := by
          rw [recordsOf, if_pos htagged, hselects, if_pos rfl]
        refine ⟨fun h _ => ?_, fun r h => ?_⟩
        · have hempty : ¬ 0 < s.len := by rw [h.len]; exact Nat.lt_irrefl 0
          rw [auxLoop_starts groups htagged hselects fun hboth => hempty hboth.1, if_neg hempty,
            Option.bind_some, Option.bind_assoc, hrecords]
          exact hstart s done h
        · have hpos : 0 < s.len := h.len ▸ h.pos
          have hend : done.length + r.encode.length = s.p := by
            rw [h.p, encode_length]
            omega
          rw [hrecords, List.append_nil]
          by_cases hroom : s.p > AUX_DATA_SIZE1 - 11
          · rw [auxLoop_breaks groups htagged hselects ⟨hpos, hroom⟩, Option.bind_some, AuxLoop.finish,
              if_pos hpos]
            exact h.copies (keep_last (hend ▸ hroom))
          · obtain ⟨t, hnext, hclosed⟩ := h.next
            rw [auxLoop_starts groups htagged hselects fun hboth => hroom hboth.2, if_pos hpos, hnext,
              Option.bind_some, Option.bind_assoc]
            exact Copies.more (hend ▸ hroom) (hstart t _ hclosed)
      | false =>
        have hvalid : (if g.tagged then selects dv g.tag else s.validTag) = false := by
          rw [if_pos htagged, hselects]
        have hrecords (valid : Bool) :
            recordsOf dv valid (g :: groups) = ([], (recordsOf dv false groups).2) := by
          rw [recordsOf, if_pos htagged, hselects, if_neg Bool.false_ne_true]
        rw [auxLoop_goes groups hvalid fun hboth => Bool.false_ne_true hboth.2,
          if_neg Bool.false_ne_true, Option.bind_some, hrecords, hrecords]
        refine ⟨fun h _ => (ih _ done).1 (h.setValid false) rfl, fun r h => ?_⟩
        have hcopies := (ih _ done).2 r (h.setValid false)
        rwa [recordsOf_false] at hcopies
    | false =>
      have hvalid : (if g.tagged then selects dv g.tag else s.validTag) = s.validTag := by
        rw [htagged, if_neg Bool.false_ne_true]
      have hrecords (valid : Bool) : recordsOf dv valid (g :: groups) =
          if valid then (g.bytes ++ (recordsOf dv valid groups).1, (recordsOf dv valid groups).2)
          else ([], (recordsOf dv valid groups).2) := by
        rw [recordsOf, htagged, if_neg Bool.false_ne_true]
      rw [auxLoop_goes groups hvalid fun hboth => by rw [htagged] at hboth; exact absurd hboth.1 (by decide),
        hrecords, hrecords]
      refine ⟨fun h hno => ?_, fun r h => ?_⟩
      · rw [hno, if_neg Bool.false_ne_true, Option.bind_some]
        exact (ih _ done).1 (h.setValid false) rfl
      · cases hvalid : s.validTag with
        | false =>
          rw [if_neg Bool.false_ne_true, Option.bind_some, if_neg Bool.false_ne_true]
          have hcopies := (ih _ done).2 r (h.setValid false)
          rwa [recordsOf_false] at hcopies
        | true =>
          rw [if_pos rfl, if_pos rfl, ← List.append_assoc, Option.bind_assoc]
          refine h.copies_put g.bytes fun t hopened => ?_
          have hcopies := (ih { t with validTag := true } done).2 ⟨r.tag, r.payload ++ g.bytes⟩
            (hopened.setValid true)
          dsimp only at hcopies
          exact hcopies

end Loop

/-! ## Runs -/

/-- A picture, and the records that were copied for it. -/
structure AuxRun where
  pic : AuxPic
  records : List AuxRecord := []

namespace AuxCall

variable (c : AuxCall)

/-- The call copies: there is metadata, and it is neither refused for the area nor for the buffer. -/
def Copied (auxDataSize : Nat) : Prop :=
  c.available = true ∧ 0 < c.auxCount ∧ c.auxCount ≤ c.auxSize ∧
    auxDataSize + c.auxCount ≤ AUX_DATA_SIZE1

instance (auxDataSize : Nat) : Decidable (c.Copied auxDataSize) :=
  inferInstanceAs (Decidable (_ ∧ _ ∧ _ ∧ _))

/-- What the words have of selected tags. -/
def selected : List UInt8 := selectedBytes c.dvMetaFlag false (auxGroups (c.area.take c.auxCount))

/-- The records of the words. -/
def records : List AuxRecord :=
  (recordsOf c.dvMetaFlag false (auxGroups (c.area.take c.auxCount))).2

end AuxCall

def auxStep (s : AuxRun) (c : AuxCall) : Option AuxRun :=
  (setAuxData s.pic c).map fun pic =>
    { pic := pic
      records := s.records ++
        if c.Copied s.pic.auxDataSize ∧ s.pic.auxDataBuf.isSome then
          keepRecords s.pic.auxDataSize c.records
        else [] }

/-- The buffer has the records, one behind the other. -/
def AuxRight (s : AuxRun) : Prop := ∀ buf ∈ s.pic.auxDataBuf,
  buf.cells.take s.pic.auxDataSize = s.records.flatMap AuxRecord.encode ∧
    s.pic.auxDataSize = (s.records.flatMap AuxRecord.encode).length

/-- The words of a call that copies are in its area, and its records end in the buffer. -/
def AuxFits (s : AuxRun) (c : AuxCall) : Prop := c.Copied s.pic.auxDataSize →
  c.auxCount ≤ c.area.length ∧
    (s.pic.auxDataBuf.isSome = true → RecordsFit s.pic.auxDataSize c.records)

section Runs

variable {s : AuxRun} {c : AuxCall} {pic : AuxPic}

theorem AuxCall.records_payloads (c : AuxCall) : c.records.flatMap AuxRecord.payload = c.selected := by
  have hpayloads := recordsOf_payloads c.dvMetaFlag false (auxGroups (c.area.take c.auxCount))
  rwa [recordsOf_false, List.nil_append] at hpayloads

theorem readArea_eq (area : List UInt16) (n : Nat) :
    readArea area n = if n ≤ area.length then some (area.take n) else none := by
  induction n with
  | zero => rfl
  | succ n ih =>
    rw [readArea, ih]
    rcases Nat.lt_or_ge n area.length with hlt | hge
    · rw [if_pos (Nat.le_of_lt hlt), if_pos (show n + 1 ≤ area.length from hlt),
        List.getElem?_eq_getElem hlt, List.take_add_one, List.getElem?_eq_getElem hlt]
      rfl
    · rw [if_neg (Nat.not_le.mpr (Nat.lt_succ_of_le hge)), List.getElem?_eq_none hge]
      split <;> rfl

/-- A call that copies nothing. -/
theorem setAuxData_idle (h : ¬ c.Copied pic.auxDataSize) : setAuxData pic c = some pic := by
  rw [setAuxData]
  by_cases havailable : c.available = true
  · rw [if_neg (not_not.mpr havailable)]
    dsimp only
    refine if_neg fun hboth => h ?_
    obtain ⟨-, hcount⟩ := hboth
    split at hcount
    · exact absurd hcount (Nat.lt_irrefl 0)
    · next hno =>
      rw [not_or, Nat.not_lt, Nat.not_lt] at hno
      exact ⟨havailable, hcount, hno⟩
  · exact if_pos havailable

theorem setAuxData_copies (h : c.Copied pic.auxDataSize) :
    setAuxData pic c = (readArea c.area c.auxCount).bind fun words => match pic.auxDataBuf with
      | none => some pic
      | some buf => ((auxLoop c.dvMetaFlag (auxGroups words)
          { buf := buf, auxDataSize := pic.auxDataSize, h := pic.auxDataSize
            p := pic.auxDataSize + 8 }).bind AuxLoop.finish).map fun s =>
              { auxDataBuf := some s.buf, auxDataSize := s.auxDataSize } := by
  obtain ⟨havailable, hcount, harea, hroom⟩ := h
  have hkept : ¬ (c.auxCount > c.auxSize ∨ pic.auxDataSize + c.auxCount > AUX_DATA_SIZE1) :=
    not_or.mpr ⟨Nat.not_lt.mpr harea, Nat.not_lt.mpr hroom⟩
  rw [setAuxData, if_neg (not_not.mpr havailable)]
  dsimp only
  rw [if_neg hkept, if_pos ⟨Nat.lt_of_lt_of_le hcount harea, hcount⟩, Option.bind_eq_bind]
  congr 1
  funext words
  cases pic.auxDataBuf with
  | none => rfl
  | some buf =>
    dsimp only
    cases auxLoop c.dvMetaFlag (auxGroups words)
        { buf := buf, auxDataSize := pic.auxDataSize, h := pic.auxDataSize
          p := pic.auxDataSize + 8 } with
    | none => rfl
    | some s =>
      simp only [Option.bind_eq_bind, Option.bind_some]
      cases s.finish <;> rfl

/-- A call is defined and keeps the records exactly when its words and its records fit. -/
theorem auxStep_right (h : AuxRight s) (c : AuxCall) :
    (AuxFits s c → ∃ t, auxStep s c = some t ∧ AuxRight t) ∧
      (¬ AuxFits s c → auxStep s c = none) := by
  by_cases hcopied : c.Copied s.pic.auxDataSize
  · by_cases hwords : c.auxCount ≤ c.area.length
    · cases hbuf : s.pic.auxDataBuf with
      | none =>
        have hset : setAuxData s.pic c = some s.pic := by
          rw [setAuxData_copies hcopied, readArea_eq, if_pos hwords, Option.bind_some, hbuf]
        have hfits : AuxFits s c := fun _ => ⟨hwords, by rw [hbuf]; exact nofun⟩
        refine ⟨fun _ => ⟨_, by rw [auxStep, hset]; rfl, ?_⟩, fun hno => absurd hfits hno⟩
        intro buf hmem
        exact nomatch hbuf.symm.trans hmem
      | some buf =>
        obtain ⟨hcontent, hsize⟩ := h buf hbuf
        have hclosed : Closed
            { buf := buf, auxDataSize := s.pic.auxDataSize, h := s.pic.auxDataSize
              p := s.pic.auxDataSize + 8 } (s.records.flatMap AuxRecord.encode) :=
          ⟨hsize, hsize, congrArg (· + 8) hsize, rfl, buf.cells.drop s.pic.auxDataSize, by
            rw [← hcontent, List.take_append_drop]⟩
        have hcopies := (loop_copies c.dvMetaFlag (auxGroups (c.area.take c.auxCount)) _ _).1 hclosed rfl
        have hset := setAuxData_copies hcopied
        rw [readArea_eq, if_pos hwords, Option.bind_some, hbuf] at hset
        dsimp only at hset
        have hrecords : (recordsOf c.dvMetaFlag false (auxGroups (c.area.take c.auxCount))).2 =
          c.records := rfl
        rw [Copies, ← hsize, hrecords] at hcopies
        by_cases hfit : RecordsFit s.pic.auxDataSize c.records
        · rw [if_pos hfit] at hcopies
          obtain ⟨t, ht, htsize, behind, htcontent⟩ := hcopies
          rw [ht] at hset
          have hfits : AuxFits s c := fun _ => ⟨hwords, fun _ => hfit⟩
          refine ⟨fun _ => ⟨_, by rw [auxStep, hset]; rfl, ?_⟩, fun hno => absurd hfits hno⟩
          rw [hbuf, if_pos ⟨hcopied, rfl⟩]
          intro buf' hmem
          obtain rfl : t.buf = buf' := Option.some.inj hmem
          dsimp only
          rw [List.flatMap_append]
          exact ⟨by rw [htcontent, htsize]; exact List.take_left, htsize⟩
        · rw [if_neg hfit] at hcopies
          rw [hcopies] at hset
          refine ⟨fun hfits => absurd ((hfits hcopied).2 (by rw [hbuf]; rfl)) hfit, fun _ => ?_⟩
          rw [auxStep, hset]
          rfl
    · have hset : setAuxData s.pic c = none := by
        rw [setAuxData_copies hcopied, readArea_eq, if_neg hwords, Option.bind_none]
      exact ⟨fun hfits => absurd (hfits hcopied).1 hwords, fun _ => by rw [auxStep, hset]; rfl⟩
  · have hfits : AuxFits s c := fun hyes => absurd hyes hcopied
    refine ⟨fun _ => ⟨_, by rw [auxStep, setAuxData_idle hcopied]; rfl, ?_⟩, fun hno => absurd hfits hno⟩
    rw [if_neg fun hboth => hcopied hboth.1, List.append_nil]
    exact h

/-- The calls for a picture stay inside the buffer and the areas, and the buffer has the records of the
selected tags, exactly when the words and the records of every call that copies fit. -/
theorem aux_data_right_iff (auxDataBuf : Option (Block UInt8 AUX_DATA_SIZE1)) (calls : List AuxCall) :
    (((∃ t, run auxStep { pic := { auxDataBuf := auxDataBuf } } calls = some t) ∧
        Always auxStep AuxRight { pic := { auxDataBuf := auxDataBuf } } calls) ↔
      Guarded auxStep AuxFits { pic := { auxDataBuf := auxDataBuf } } calls) ∧
    ∀ c ∈ calls, c.records.flatMap AuxRecord.payload = c.selected := by
  refine ⟨defined_iff_guarded (fun _ h => h) (fun s c h hfits => (auxStep_right h c).1 hfits)
    (fun s c s' h hno hs' => ?_) fun buf _ => ⟨rfl, rfl⟩, fun c _ => c.records_payloads⟩
  rw [(auxStep_right h c).2 hno] at hs'
  exact nomatch hs'

/-- An area of 12 KiB, and the register says 769 units: the 6152 words are counted against its bytes. -/
def wordsOfLargeArea : AuxCall where
  available := true
  sizeRegVal := 769 * 65536
  prefixAux := List.replicate 6144 0x100
  suffixAux := []
  suffixFlag := false
  dvMetaFlag := 0

/-- The last eight words are read behind the area. -/
theorem wordsOfLargeArea_outside (auxDataBuf : Option (Block UInt8 AUX_DATA_SIZE1)) :
    setAuxData { auxDataBuf := auxDataBuf } wordsOfLargeArea = none := by
  have hlength : wordsOfLargeArea.area.length = 6144 := List.length_replicate
  have hcount : wordsOfLargeArea.auxCount = 6152 := by decide
  have hcopied : wordsOfLargeArea.Copied 0 := by
    refine ⟨rfl, by rw [hcount]; decide, ?_, by rw [hcount]; decide⟩
    rw [hcount, AuxCall.auxSize, hlength]
    decide
  rw [setAuxData_copies hcopied, readArea_eq, hlength, hcount]
  rfl

theorem wordsOfLargeArea_undefined : run auxStep
    { pic := { auxDataBuf := some (Block.fill AUX_DATA_SIZE1 0) } } [wordsOfLargeArea] = none := by
  rw [run_cons, auxStep, wordsOfLargeArea_outside]
  rfl

end Runs

end MediaModules.Hevc
