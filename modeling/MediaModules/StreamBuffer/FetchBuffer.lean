import Mathlib.Data.Finset.Basic
import MediaModules.StreamBuffer.RingBuffer

/-!
# The fetch buffer of the elementary stream parser

One DMA buffer serves all stream buffers that use the parser. The parser counts its users, the fetch
buffer its own references: the first user of the parser takes a reference, but every video or audio
buffer that is released drops one.
-/
namespace MediaModules.StreamBuffer

open MediaModules.Lib.Run
open MediaModules.Lib.Words

def EINVAL : Int := 22

/-- `BUF_TYPE_*` -/
inductive BufType
  | video | audio | subtitle | userdata | hevc
  deriving DecidableEq

/-- `PTS_TYPE_*` -/
inductive PtsType
  | video | audio | hevc | max
  deriving DecidableEq

/-- `struct fetch`, without the size -/
structure Fetch where
  paddr : Nat := 0
  vaddr : Nat := 0
  ref : Int := 0

/-- What the calls of `esparser_init` give: the addresses, whether there is memory for the search
pattern, and the results of `pts_start` and `vdec_request_irq`. -/
structure InitEnv where
  paddr : Nat
  vaddr : Nat
  pattern : Bool
  ptsStart : Int
  irq : Int

/-- `stbuf_fetch_init` -/
def stbufFetchInit (e : InitEnv) (fetchbuf : Fetch) : Int × Fetch :=
  if fetchbuf.paddr ≠ 0 then (0, { fetchbuf with ref := s32 (fetchbuf.ref + 1) })
  else if e.paddr = 0 then (-ENOMEM, fetchbuf)
  else if e.vaddr = 0 then (-ENOMEM, { fetchbuf with vaddr := 0 })
  else (0, { paddr := e.paddr, vaddr := e.vaddr, ref := 1 })

/-- `stbuf_fetch_release` -/
def stbufFetchRelease (fetchbuf : Fetch) : Fetch :=
  let ref := s32 (fetchbuf.ref - 1)
  if ref = 0 then { paddr := 0, vaddr := 0, ref := ref } else { fetchbuf with ref := ref }

/-- The parser's data; `flag` is `BUF_FLAG_PARSER` of the stream buffers. -/
structure EsParser (β : Type*) where
  useCount : Int := 0
  fetchbuf : Fetch := {}
  searchPattern : Bool := false
  flag : β → Bool := fun _ => false

section Parser
variable {β : Type*} [DecidableEq β] (kind : β → BufType) (hasHevcVdec : Bool)

/-- The `pts_type` of `esparser_init`; there is none for the buffers it refuses. -/
def initPtsType (b : β) : Option PtsType :=
  match kind b with
  | .hevc => if hasHevcVdec then some .hevc else none
  | .video => some .video
  | .audio => some .audio
  | .subtitle => some .max
  | .userdata => none

/-- The first user of the parser takes the fetch buffer and the search pattern. -/
def firstUse (e : InitEnv) (s : EsParser β) : Int × EsParser β :=
  let r := stbufFetchInit e s.fetchbuf
  let s := { s with fetchbuf := r.2 }
  if r.1 ≠ 0 then (-ENOMEM, s)
  else if s.searchPattern then (0, s)
  else if e.pattern then (0, { s with searchPattern := true })
  else (-ENOMEM, s)

/-- The error exits of `esparser_init` -/
def EsParser.giveUp (s : EsParser β) (b : β) : EsParser β :=
  { s with useCount := s32 (s.useCount - 1), flag := fun b' => if b' = b then false else s.flag b' }

/-- `esparser_init` -/
def esparserInit (e : InitEnv) (b : β) (s : EsParser β) : Int × EsParser β :=
  match initPtsType kind hasHevcVdec b with
  | none => (-EINVAL, s)
  | some ptsType =>
    let s := { s with
      flag := fun b' => if b' = b then true else s.flag b', useCount := s32 (s.useCount + 1) }
    let first := s.useCount = 1
    let r := if first then firstUse e s else (0, s)
    if r.1 ≠ 0 then (r.1, r.2.giveUp b)
    else if ptsType ≠ .max ∧ e.ptsStart < 0 then (e.ptsStart, r.2.giveUp b)
    else if first ∧ e.irq ≠ 0 then (e.irq, r.2.giveUp b)
    else (0, r.2)

/-- The end of `esparser_release`: subtitle buffers return before the fetch buffer is released. -/
def releaseByType (b : β) (s : EsParser β) : EsParser β :=
  let cleared := { s with flag := fun b' => if b' = b then false else s.flag b' }
  let released := { cleared with fetchbuf := stbufFetchRelease s.fetchbuf }
  match kind b with
  | .hevc => if hasHevcVdec then released else s
  | .video => released
  | .audio => released
  | .subtitle => cleared
  | .userdata => s

/-- `esparser_release` -/
def esparserRelease (b : β) (s : EsParser β) : EsParser β :=
  if !s.flag b then s
  else if s.useCount = 0 then s
  else
    let s := { s with useCount := s32 (s.useCount - 1) }
    releaseByType kind hasHevcVdec b
      (if s.useCount = 0 then { s with searchPattern := false } else s)

/-- The calls on the stream buffers. -/
inductive ParserCall (β : Type*)
  | init (e : InitEnv) (b : β)
  | release (b : β)

/-- The parser, and a record of the calls: the buffers that are initialised and not yet released, and
whether the last call released the last of them. -/
structure Tracked (β : Type*) where
  parser : EsParser β := {}
  live : Finset β := ∅
  emptied : Bool := false

def parserStep (s : Tracked β) : ParserCall β → Option (Tracked β)
  | .init e b =>
    let r := esparserInit kind hasHevcVdec e b s.parser
    some ⟨r.2, if r.1 = 0 then insert b s.live else s.live, false⟩
  | .release b =>
    some ⟨esparserRelease kind hasHevcVdec b s.parser, s.live.erase b,
      decide (b ∈ s.live ∧ s.live.erase b = ∅)⟩

/-- What the reference count is for. -/
structure FetchKept (s : Tracked β) : Prop where
  allocated : s.live.Nonempty → s.parser.fetchbuf.paddr ≠ 0 ∧ s.parser.fetchbuf.vaddr ≠ 0
  count : 0 ≤ s.parser.fetchbuf.ref
  freed : s.emptied = true → s.parser.fetchbuf.paddr = 0 ∧ s.parser.fetchbuf.vaddr = 0

/-- Releasing `b` reaches `stbuf_fetch_release`. -/
def DropsFetch (b : β) (s : EsParser β) : Prop :=
  s.flag b = true ∧ s.useCount ≠ 0 ∧
    (kind b = .video ∨ kind b = .audio ∨ kind b = .hevc ∧ hasHevcVdec = true)

instance (b : β) (s : EsParser β) : Decidable (DropsFetch kind hasHevcVdec b s) :=
  inferInstanceAs (Decidable (_ ∧ _ ∧ _))

/-- The call keeps the references in step with the users. An initialisation finds the parser unused,
or the fetch buffer there. A release that reaches `stbuf_fetch_release` finds a reference, a second one
when other buffers stay, and no second one when it is the last; any other release is not the last. -/
def InStep (s : Tracked β) : ParserCall β → Prop
  | .init e b => ∀ ptsType, initPtsType kind hasHevcVdec b = some ptsType →
    if s.parser.useCount = 0 then
      s.parser.fetchbuf.paddr ≠ 0 → s.parser.fetchbuf.ref < 2147483647
    else ptsType = .max ∨ 0 ≤ e.ptsStart → s.parser.fetchbuf.paddr ≠ 0
  | .release b =>
    if DropsFetch kind hasHevcVdec b s.parser then
      0 < s.parser.fetchbuf.ref ∧ ((s.live.erase b).Nonempty → 1 < s.parser.fetchbuf.ref) ∧
        (b ∈ s.live → s.live.erase b = ∅ → s.parser.fetchbuf.ref = 1)
    else b ∈ s.live → s.live.erase b ≠ ∅

end Parser

/-- The fetch buffer is allocated and mapped as long as there are references to it. -/
structure Fetch.Coherent (f : Fetch) : Prop where
  counted : f.paddr ≠ 0 ↔ 0 < f.ref
  mapped : f.paddr ≠ 0 ↔ f.vaddr ≠ 0
  range : f.ref < 2147483648

namespace Fetch.Coherent
variable {f : Fetch}

/-- A reference more, or the first one. -/
theorem init (h : f.Coherent) (h0 : 0 ≤ f.ref) (e : InitEnv)
    (hroom : f.paddr ≠ 0 → f.ref < 2147483647) :
    (stbufFetchInit e f).2.Coherent ∧ 0 ≤ (stbufFetchInit e f).2.ref ∧
      (f.paddr ≠ 0 → (stbufFetchInit e f).2.paddr ≠ 0) ∧
      ((stbufFetchInit e f).1 = 0 → (stbufFetchInit e f).2.paddr ≠ 0) := by
  have hcounted := h.counted
  have hmapped := h.mapped
  unfold stbufFetchInit
  split
  · next hp =>
    have hlt := hroom hp
    have href : s32 (f.ref + 1) = f.ref + 1 := s32_of_range (by omega) (by omega)
    refine ⟨⟨?_, hmapped, ?_⟩, ?_, fun _ => hp, fun _ => hp⟩ <;> simp only [href] <;> omega
  · next hp =>
    split
    · exact ⟨h, h0, fun hne => absurd hne hp, fun h => absurd h (by simp [ENOMEM])⟩
    · split
      · refine ⟨⟨hcounted, ?_, h.range⟩, h0, fun hne => absurd hne hp, fun h => absurd h (by simp [ENOMEM])⟩
        exact ⟨fun hne => absurd hne hp, fun hne => absurd rfl hne⟩
      · next ha hv => exact ⟨⟨by simp [ha], by simp [ha, hv], by simp⟩, by simp,
          fun _ => ha, fun _ => ha⟩

/-- One reference too many turns the count negative. -/
theorem init_overflow (hp : f.paddr ≠ 0) (href : f.ref = 2147483647) (e : InitEnv) :
    (stbufFetchInit e f).2.ref < 0 := by
  rw [stbufFetchInit, if_pos hp]
  simp only [href, s32]
  decide

/-- A reference less; the last one frees the buffer. -/
theorem release (h : f.Coherent) (hpos : 0 < f.ref) :
    (stbufFetchRelease f).Coherent ∧ (stbufFetchRelease f).ref = f.ref - 1 := by
  have hrange := h.range
  have href : s32 (f.ref - 1) = f.ref - 1 := s32_of_range (by omega) (by omega)
  simp only [stbufFetchRelease, href]
  split
  · next h0 => exact ⟨⟨by simp [h0], by simp, by simp [h0]⟩, rfl⟩
  · next h0 =>
    have hleft : 0 < f.ref - 1 := by omega
    refine ⟨⟨⟨fun _ => hleft, fun _ => h.counted.mpr hpos⟩, h.mapped, ?_⟩, rfl⟩
    simp only
    omega

end Fetch.Coherent

/-- A count that fits its word. -/
def InRange (n : Int) : Prop := -2147483648 ≤ n ∧ n < 2147483648

theorem s32_inRange (x : Int) : InRange (s32 x) := by
  simp only [InRange, s32]
  omega

section Calls
variable {β : Type*} [DecidableEq β] {kind : β → BufType} {hasHevcVdec : Bool}

omit [DecidableEq β] in
theorem firstUse_fetchbuf (e : InitEnv) (s : EsParser β) :
    (firstUse e s).2.fetchbuf = (stbufFetchInit e s.fetchbuf).2 ∧
      (firstUse e s).2.useCount = s.useCount ∧
      ((firstUse e s).1 = 0 → (stbufFetchInit e s.fetchbuf).1 = 0) := by
  simp only [firstUse]
  split
  · exact ⟨rfl, rfl, fun h => absurd h (by simp [ENOMEM])⟩
  · next h0 =>
    rw [not_not] at h0
    split
    · exact ⟨rfl, rfl, fun _ => h0⟩
    · split <;> exact ⟨rfl, rfl, fun _ => h0⟩

/-- Refused buffers leave the parser as it is. -/
theorem esparserInit_refused {b : β} (h : initPtsType kind hasHevcVdec b = none) (e : InitEnv)
    (s : EsParser β) : esparserInit kind hasHevcVdec e b s = (-EINVAL, s) := by
  rw [esparserInit, h]

/-- The first user takes a reference, whether or not it succeeds in the end. -/
theorem esparserInit_first {b : β} {ptsType : PtsType} {s : EsParser β}
    (hp : initPtsType kind hasHevcVdec b = some ptsType) (h0 : s.useCount = 0) (e : InitEnv) :
    let r := esparserInit kind hasHevcVdec e b s
    r.2.fetchbuf = (stbufFetchInit e s.fetchbuf).2 ∧ InRange r.2.useCount ∧
      (r.1 = 0 → (stbufFetchInit e s.fetchbuf).1 = 0) := by
  have hone : s32 (s.useCount + 1) = 1 := by rw [h0]; rfl
  simp only [esparserInit, hp, hone, if_true, true_and]
  obtain ⟨hfetch, hcount, hzero⟩ := firstUse_fetchbuf e
    { s with flag := fun b' => if b' = b then true else s.flag b', useCount := 1 }
  split
  · next hne => exact ⟨hfetch, s32_inRange _, fun h => absurd h hne⟩
  · next hr =>
    rw [not_not] at hr
    split
    · exact ⟨hfetch, s32_inRange _, fun _ => hzero hr⟩
    · split
      · exact ⟨hfetch, s32_inRange _, fun _ => hzero hr⟩
      · refine ⟨hfetch, ?_, fun _ => hzero hr⟩
        rw [hcount]
        exact ⟨by simp, by simp⟩

/-- The others take none; they succeed when the timestamps start. -/
theorem esparserInit_other {b : β} {ptsType : PtsType} {s : EsParser β}
    (hp : initPtsType kind hasHevcVdec b = some ptsType) (hrange : InRange s.useCount)
    (h0 : s.useCount ≠ 0) (e : InitEnv) :
    let r := esparserInit kind hasHevcVdec e b s
    r.2.fetchbuf = s.fetchbuf ∧ InRange r.2.useCount ∧
      (r.1 = 0 ↔ ptsType = .max ∨ 0 ≤ e.ptsStart) := by
  have hone : s32 (s.useCount + 1) ≠ 1 := by
    obtain ⟨hlo, hhi⟩ := hrange
    simp only [s32]
    omega
  simp only [esparserInit, hp, hone, if_false, ne_eq, not_true_eq_false, false_and]
  split
  · next h =>
    refine ⟨rfl, s32_inRange _, ⟨fun hz => ?_, fun hor => ?_⟩⟩
    · exact absurd h.2 (by simp only at hz; omega)
    · rcases hor with hmax | hpos
      · exact absurd hmax h.1
      · exact absurd h.2 (by omega)
  · next h =>
    refine ⟨rfl, s32_inRange _, ⟨fun _ => ?_, fun _ => rfl⟩⟩
    rw [not_and_or, not_not, not_lt] at h
    exact h

variable (kind hasHevcVdec) in
theorem releaseByType_spec (b : β) (s : EsParser β) :
    (releaseByType kind hasHevcVdec b s).useCount = s.useCount ∧
    (releaseByType kind hasHevcVdec b s).fetchbuf =
      if kind b = .video ∨ kind b = .audio ∨ kind b = .hevc ∧ hasHevcVdec = true then
        stbufFetchRelease s.fetchbuf else s.fetchbuf := by
  unfold releaseByType
  cases hasHevcVdec <;> cases kind b <;> exact ⟨rfl, rfl⟩

theorem esparserRelease_spec (b : β) (s : EsParser β) :
    (esparserRelease kind hasHevcVdec b s).fetchbuf =
      (if DropsFetch kind hasHevcVdec b s then stbufFetchRelease s.fetchbuf else s.fetchbuf) ∧
    (InRange s.useCount → InRange (esparserRelease kind hasHevcVdec b s).useCount) := by
  unfold esparserRelease
  split
  · next hflag =>
    have hno : ¬ DropsFetch kind hasHevcVdec b s := fun h => by
      rw [h.1] at hflag
      exact absurd hflag (by decide)
    exact ⟨(if_neg hno).symm, fun h => h⟩
  · next hflag =>
    split
    · next h0 => exact ⟨(if_neg fun h => h.2.1 h0).symm, fun h => h⟩
    · next h0 =>
      have hflag' : s.flag b = true := by simpa using hflag
      simp only [DropsFetch, hflag', true_and, h0, ne_eq, not_false_eq_true]
      obtain ⟨hcount, hfetch⟩ := releaseByType_spec kind hasHevcVdec b
        (if s32 (s.useCount - 1) = 0 then
          { s with useCount := s32 (s.useCount - 1), searchPattern := false }
        else { s with useCount := s32 (s.useCount - 1) })
      rw [hcount, hfetch]
      refine ⟨?_, fun _ => ?_⟩
      · split <;> split <;> rfl
      · split <;> exact s32_inRange _

end Calls

/-- What every balanced call keeps. -/
structure FetchSound {β : Type*} (s : Tracked β) : Prop extends FetchKept s where
  coherent : s.parser.fetchbuf.Coherent
  range : InRange s.parser.useCount

section Balance
variable {β : Type*} [DecidableEq β] {kind : β → BufType} {hasHevcVdec : Bool} {s : Tracked β}

/-- An initialisation in step keeps the references right. -/
theorem FetchSound.init (h : FetchSound s) {e : InitEnv} {b : β}
    (hok : InStep kind hasHevcVdec s (.init e b)) {s' : Tracked β}
    (hs : parserStep kind hasHevcVdec s (.init e b) = some s') : FetchSound s' := by
  obtain rfl := Option.some.inj hs
  cases hp : initPtsType kind hasHevcVdec b with
  | none =>
    simp only [esparserInit_refused hp]
    exact ⟨⟨fun hne => h.allocated (by simpa [EINVAL] using hne), h.count, fun hf => by cases hf⟩,
      h.coherent, h.range⟩
  | some ptsType =>
    have hguard := hok ptsType hp
    by_cases h0 : s.parser.useCount = 0
    · rw [if_pos h0] at hguard
      obtain ⟨hcoh, hpos, hkept, hgot⟩ := h.coherent.init h.count e hguard
      obtain ⟨hfetch, hrange, hzero⟩ := esparserInit_first hp h0 e
      rw [← hfetch] at hcoh hpos hkept hgot
      refine ⟨⟨fun hne => ?_, hpos, fun hf => by cases hf⟩, hcoh, hrange⟩
      have hp' : (esparserInit kind hasHevcVdec e b s.parser).2.fetchbuf.paddr ≠ 0 := by
        split at hne
        · next hr => exact hgot (hzero hr)
        · exact hkept (h.allocated hne).1
      exact ⟨hp', hcoh.mapped.mp hp'⟩
    · rw [if_neg h0] at hguard
      obtain ⟨hfetch, hrange, hzero⟩ := esparserInit_other hp h.range h0 e
      refine ⟨⟨fun hne => ?_, ?_, fun hf => by cases hf⟩, ?_, hrange⟩
      · rw [hfetch]
        split at hne
        · next hr =>
          have hp' := hguard (hzero.mp hr)
          exact ⟨hp', h.coherent.mapped.mp hp'⟩
        · exact h.allocated hne
      · rw [hfetch]
        exact h.count
      · rw [hfetch]
        exact h.coherent

/-- One out of step leaves a buffer without the memory, or a negative count. -/
theorem FetchSound.init_breaks (h : FetchSound s) {e : InitEnv} {b : β}
    (hok : ¬ InStep kind hasHevcVdec s (.init e b)) {s' : Tracked β}
    (hs : parserStep kind hasHevcVdec s (.init e b) = some s') : ¬ FetchKept s' := by
  obtain rfl := Option.some.inj hs
  rw [InStep] at hok
  push Not at hok
  obtain ⟨ptsType, hp, hbad⟩ := hok
  intro hkept
  by_cases h0 : s.parser.useCount = 0
  · rw [if_pos h0] at hbad
    push Not at hbad
    have href : s.parser.fetchbuf.ref = 2147483647 := by
      have hrange := h.coherent.range
      omega
    have hneg := Fetch.Coherent.init_overflow hbad.1 href e
    have hcount := hkept.count
    rw [(esparserInit_first hp h0 e).1] at hcount
    omega
  · rw [if_neg h0] at hbad
    push Not at hbad
    obtain ⟨hfetch, -, hzero⟩ := esparserInit_other hp h.range h0 e
    have hr := hzero.mpr hbad.1
    refine (hkept.allocated ?_).1 (hfetch ▸ hbad.2)
    rw [if_pos hr]
    exact Finset.insert_nonempty _ _

/-- A release in step keeps the references right. -/
theorem FetchSound.release (h : FetchSound s) {b : β}
    (hok : InStep kind hasHevcVdec s (.release b)) {s' : Tracked β}
    (hs : parserStep kind hasHevcVdec s (.release b) = some s') : FetchSound s' := by
  obtain rfl := Option.some.inj hs
  obtain ⟨hfetch, hrange⟩ := @esparserRelease_spec β _ kind hasHevcVdec b s.parser
  rw [InStep] at hok
  split at hok
  · next hdrops =>
    obtain ⟨hpos, hstay, hlast⟩ := hok
    obtain ⟨hcoh, href⟩ := h.coherent.release hpos
    rw [if_pos hdrops] at hfetch
    rw [← hfetch] at hcoh href
    refine ⟨⟨fun hne => ?_, by simp only [href]; omega, fun hf => ?_⟩, hcoh, hrange h.range⟩
    · have hp := hcoh.counted.mpr (by have hmore := hstay hne; omega)
      exact ⟨hp, hcoh.mapped.mp hp⟩
    · obtain ⟨hb, hempty⟩ := of_decide_eq_true hf
      have hone := hlast hb hempty
      have hp : ¬ (esparserRelease kind hasHevcVdec b s.parser).fetchbuf.paddr ≠ 0 := fun hne => by
        have hleft := hcoh.counted.mp hne
        omega
      exact ⟨not_not.mp hp, not_not.mp fun hv => hp (hcoh.mapped.mpr hv)⟩
  · next hdrops =>
    rw [if_neg hdrops] at hfetch
    refine ⟨⟨fun hne => ?_, by simp only [hfetch]; exact h.count, fun hf => ?_⟩,
      by simp only [hfetch]; exact h.coherent, hrange h.range⟩
    · simp only [hfetch]
      exact h.allocated (hne.mono (Finset.erase_subset b s.live))
    · obtain ⟨hb, hempty⟩ := of_decide_eq_true hf
      exact absurd hempty (hok hb)

/-- One out of step drops a reference too many or too few. -/
theorem FetchSound.release_breaks (h : FetchSound s) {b : β}
    (hok : ¬ InStep kind hasHevcVdec s (.release b)) {s' : Tracked β}
    (hs : parserStep kind hasHevcVdec s (.release b) = some s') : ¬ FetchKept s' := by
  obtain rfl := Option.some.inj hs
  obtain ⟨hfetch, -⟩ := @esparserRelease_spec β _ kind hasHevcVdec b s.parser
  intro hkept
  apply hok
  rw [InStep]
  split
  · next hdrops =>
    rw [if_pos hdrops] at hfetch
    have hpos : 0 < s.parser.fetchbuf.ref := by
      have hcount := hkept.count
      rw [hfetch] at hcount
      have h0 := h.count
      by_contra hneg
      have hz : s.parser.fetchbuf.ref = 0 := by omega
      simp [stbufFetchRelease, hz, s32] at hcount
    obtain ⟨hcoh, href⟩ := h.coherent.release hpos
    rw [← hfetch] at hcoh href
    refine ⟨hpos, fun hne => ?_, fun hb hempty => ?_⟩
    · have hleft := hcoh.counted.mp (hkept.allocated hne).1
      omega
    · have hfreed := (hkept.freed (decide_eq_true ⟨hb, hempty⟩)).1
      have hnot : ¬ 0 < (esparserRelease kind hasHevcVdec b s.parser).fetchbuf.ref := fun hleft =>
        hcoh.counted.mpr hleft hfreed
      omega
  · next hdrops =>
    rw [if_neg hdrops] at hfetch
    intro hb hempty
    have hfreed := (hkept.freed (decide_eq_true ⟨hb, hempty⟩)).1
    rw [hfetch] at hfreed
    exact (h.allocated ⟨b, hb⟩).1 hfreed

omit [DecidableEq β] in
theorem fetchSound_start : FetchSound ({} : Tracked β) :=
  ⟨⟨fun h => absurd h (by simp), by simp, fun h => by cases h⟩,
    ⟨by simp, by simp, by simp⟩, by simp, by simp⟩

/-- All along a run of the calls, the fetch buffer is there for the buffers that use it, is not
counted below zero and is freed with the last of them, exactly when every call keeps the references
in step. -/
theorem fetch_kept_iff (ops : List (ParserCall β)) :
    Always (parserStep kind hasHevcVdec) FetchKept {} ops ↔
      Guarded (parserStep kind hasHevcVdec) (InStep kind hasHevcVdec) {} ops := by
  have htotal : ∀ s : Tracked β, ∀ op, True →
      ∃ s', parserStep kind hasHevcVdec s op = some s' ∧ True := fun s op _ => by cases op <;> exact ⟨_, rfl, trivial⟩
  obtain ⟨t, hrun, -⟩ := run_total htotal trivial ops
  refine always_iff_guarded (D := fun _ => True) (fun _ h => h.toFetchKept) ?_ ?_
    fetchSound_start (fun _ _ => trivial) hrun
  · intro s op s' h _ hok hs
    cases op with
    | init e b => exact h.init hok hs
    | release b => exact h.release hok hs
  · intro s op s' h _ hok hs
    cases op with
    | init e b => exact h.init_breaks hok hs
    | release b => exact h.release_breaks hok hs

/-- A video buffer and an audio buffer. -/
def twoBuffers (b : Fin 2) : BufType := if b = 0 then .video else .audio

def initOk : InitEnv := ⟨4096, 4096, true, 0, 0⟩

/-- Releasing the video buffer frees the fetch buffer the audio buffer still uses. -/
theorem fetch_freed_early : ¬ Always (parserStep twoBuffers true) FetchKept {}
    [.init initOk 0, .init initOk 1, .release 0] := by
  intro h
  have hlast := (always_last h rfl).allocated ⟨1, by decide +kernel⟩
  exact absurd hlast.1 (by decide +kernel)

end Balance

end MediaModules.StreamBuffer
